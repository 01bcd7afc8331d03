import QueryGlean.Fragment

namespace QueryGlean

namespace Fragment

variable {f : Fragment} {fs : List Fragment} {k : String} {seen : List String}

theorem filter_dedupe_go :
    (dedupe.go seen fs).filter (·.locationKey = k) =
      if k ∈ seen then [] else (fs.find? (·.locationKey = k)).toList := by
  induction fs generalizing seen
  case nil => simp [dedupe.go]
  case cons f fs hi =>
    unfold dedupe.go
    by_cases hk : f.locationKey = k
    case pos =>
      subst hk
      by_cases hs : f.locationKey ∈ seen
      case pos => simp [hs, hi]
      case neg => simp [hs, hi]
    case neg =>
      by_cases hs : f.locationKey ∈ seen
      case pos => simp [hs, hi, hk]
      case neg => simp [hs, hi, hk, Ne.symm hk]

-- The core lemma for what is kept.
theorem filter_dedupe (fs : List Fragment) (k : String) :
    (dedupe fs).filter (·.locationKey = k) = (fs.find? (·.locationKey = k)).toList := by
  simp [dedupe, filter_dedupe_go]

theorem mem_dedupe : f ∈ dedupe fs ↔ fs.find? (·.locationKey = f.locationKey) = some f := by
  have h : f ∈ dedupe fs ↔ f ∈ (dedupe fs).filter (·.locationKey = f.locationKey) := by simp
  rw [h, filter_dedupe, Option.mem_toList]

theorem nodup_locationKey_dedupe_go : ((dedupe.go seen fs).map (·.locationKey)).Nodup := by
  induction fs generalizing seen
  case nil => simp [dedupe.go]
  case cons f fs hi =>
    unfold dedupe.go
    split
    case isTrue  => exact hi
    case isFalse =>
      refine List.nodup_cons.mpr ⟨fun h => ?_, hi⟩
      have ⟨g, hg, hk⟩ := List.mem_map.mp h
      have hf : g ∈ (dedupe.go (f.locationKey :: seen) fs).filter (·.locationKey = f.locationKey) := by
        simp [hg, hk]
      simp [filter_dedupe_go] at hf

theorem nodup_locationKey_dedupe (fs : List Fragment) : ((dedupe fs).map (·.locationKey)).Nodup :=
  nodup_locationKey_dedupe_go

end Fragment

end QueryGlean
