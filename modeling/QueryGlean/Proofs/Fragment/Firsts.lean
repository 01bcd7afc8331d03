import Mathlib.Data.List.Induction
import QueryGlean.Proofs.Fragment.Dedupe

namespace QueryGlean

namespace Fragment

variable {fs gs : List Fragment} {k : String} {seen seen' ks : List String}

-- Neither the order of the keys that were seen matters nor how often they were.
theorem dedupe_go_congr (h : ∀ k, k ∈ seen ↔ k ∈ seen') : dedupe.go seen fs = dedupe.go seen' fs := by
  induction fs generalizing seen seen'
  case nil => rfl
  case cons f fs hi =>
    have hs : seen.contains f.locationKey = seen'.contains f.locationKey := by simp [h]
    have hc : ∀ k, k ∈ f.locationKey :: seen ↔ k ∈ f.locationKey :: seen' := fun k => by simp [h]
    simp only [dedupe.go, hs, hi h, hi hc]

theorem filter_not_mem_dedupe_go :
    (dedupe.go seen fs).filter (·.locationKey ∉ ks) = dedupe.go (ks ++ seen) fs := by
  induction fs generalizing seen
  case nil => rfl
  case cons f fs hi =>
    simp only [dedupe.go, List.contains_eq_mem, decide_eq_true_eq, List.mem_append]
    by_cases hs : f.locationKey ∈ seen
    case pos => rw [if_pos hs, if_pos (.inr hs), hi]
    case neg =>
      rw [if_neg hs]
      by_cases hk : f.locationKey ∈ ks
      case pos =>
        rw [if_pos (.inl hk), List.filter_cons_of_neg (by simpa using hk), hi]
        exact dedupe_go_congr fun k => by grind
      case neg =>
        rw [if_neg (by simp [hk, hs]), List.filter_cons_of_pos (by simpa using hk), hi]
        exact congrArg (f :: ·) (dedupe_go_congr fun k => by grind)

theorem dedupe_go_append :
    dedupe.go seen (fs ++ gs) = dedupe.go seen fs ++ dedupe.go (fs.map (·.locationKey) ++ seen) gs := by
  induction fs generalizing seen
  case nil => rfl
  case cons f fs hi =>
    rw [List.cons_append, dedupe.go, dedupe.go]
    split
    case isTrue hs =>
      have hm : f.locationKey ∈ seen := by simpa using hs
      rw [hi]
      exact congrArg _ (dedupe_go_congr fun k => by grind)
    case isFalse =>
      rw [hi, List.cons_append]
      exact congrArg _ (congrArg _ (dedupe_go_congr fun k => by grind))

-- The core lemma for lists that are put together.
theorem dedupe_append (fs gs : List Fragment) :
    dedupe (fs ++ gs) = dedupe fs ++ (dedupe gs).filter (·.locationKey ∉ fs.map (·.locationKey)) := by
  rw [dedupe, dedupe_go_append, dedupe, dedupe, filter_not_mem_dedupe_go]

def firsts (fs : List Fragment) : List Fragment :=
  (fs.zipIdx.filter fun p => p.1.locationKey ∉ (fs.take p.2).map (·.locationKey)).map (·.1)

theorem firsts_append_singleton (fs : List Fragment) (f : Fragment) :
    firsts (fs ++ [f]) = firsts fs ++ [f].filter (·.locationKey ∉ fs.map (·.locationKey)) := by
  have before : ∀ p ∈ fs.zipIdx, (fs ++ [f]).take p.2 = fs.take p.2 := fun p hp => by
    have hi := (List.mem_zipIdx hp).right.left
    exact List.take_append_of_le_length (by omega)
  rw [firsts, firsts, List.zipIdx_append, List.filter_append, List.map_append]
  refine congrArg₂ (· ++ ·) ?front ?last
  case front => exact congrArg _ (List.filter_congr fun p hp => by rw [before p hp])
  case last  => by_cases h : f.locationKey ∈ fs.map (·.locationKey) <;> simp_all

theorem dedupe_eq_firsts (fs : List Fragment) : dedupe fs = firsts fs := by
  induction fs using List.reverseRecOn
  case nil => rfl
  case append_singleton fs f hi =>
    rw [dedupe_append, firsts_append_singleton, hi]
    rfl

theorem sublist_firsts (fs : List Fragment) : (firsts fs).Sublist fs := by
  have h := (List.filter_sublist (p := fun p => p.1.locationKey ∉ (fs.take p.2).map (·.locationKey))
    (l := fs.zipIdx)).map (·.1)
  rwa [List.zipIdx_map_fst] at h

theorem mem_map_locationKey_dedupe : k ∈ (dedupe fs).map (·.locationKey) ↔ k ∈ fs.map (·.locationKey) := by
  have h : (dedupe fs).filter (·.locationKey = k) ≠ [] ↔ (fs.find? (·.locationKey = k)).isSome := by
    rw [filter_dedupe]
    cases fs.find? (·.locationKey = k) <;> simp
  simpa [List.filter_eq_nil_iff] using h

theorem dedupe_eq_self_of_nodup (h : (fs.map (·.locationKey)).Nodup) : dedupe fs = fs := by
  induction fs using List.reverseRecOn
  case nil => rfl
  case append_singleton fs f hi =>
    rw [List.map_append, List.nodup_append] at h
    have hf : f.locationKey ∉ fs.map (·.locationKey) := fun hm => h.right.right _ hm _ (by simp) rfl
    rw [dedupe_append, hi h.left, show dedupe [f] = [f] from rfl, List.filter_eq_self.mpr (by simpa using hf)]

theorem dedupe_eq_self_iff : dedupe fs = fs ↔ (fs.map (·.locationKey)).Nodup :=
  ⟨fun h => h ▸ nodup_locationKey_dedupe fs, dedupe_eq_self_of_nodup⟩

theorem dedupe_exact (fs gs : List Fragment) :
    dedupe fs = firsts fs ∧ (dedupe fs).Sublist fs ∧ ((dedupe fs).map (·.locationKey)).Nodup ∧
    (∀ k, k ∈ (dedupe fs).map (·.locationKey) ↔ k ∈ fs.map (·.locationKey)) ∧
    (∀ k, (dedupe fs).filter (·.locationKey = k) = (fs.find? (·.locationKey = k)).toList) ∧
    dedupe (fs ++ gs) = dedupe fs ++ (dedupe gs).filter (·.locationKey ∉ fs.map (·.locationKey)) ∧
    dedupe (dedupe fs) = dedupe fs ∧ (dedupe fs = fs ↔ (fs.map (·.locationKey)).Nodup) := by
  refine ⟨dedupe_eq_firsts fs, dedupe_eq_firsts fs ▸ sublist_firsts fs, nodup_locationKey_dedupe fs,
    fun k => mem_map_locationKey_dedupe, filter_dedupe fs, dedupe_append fs gs, ?_, dedupe_eq_self_iff⟩
  exact dedupe_eq_self_of_nodup (nodup_locationKey_dedupe fs)

end Fragment

end QueryGlean
