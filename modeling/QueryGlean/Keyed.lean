
namespace QueryGlean

abbrev Keyed (α : Type) := List (String × α)

namespace Keyed

-- Sets the value of a key in its place, or as the last one.
def insert (key : String) (a : α) : Keyed α → Keyed α
  | [] => [(key, a)]
  | (k, old) :: rest => if k = key then (k, a) :: rest else (k, old) :: insert key a rest

theorem lookup_insert (key k : String) (a : α) (entries : Keyed α) :
    (insert key a entries).lookup k = if k = key then some a else entries.lookup k := by
  induction entries with
  | nil => by_cases h : k = key <;> grind [insert]
  | cons p ps ih =>
    obtain ⟨k', old⟩ := p
    by_cases h : k' = key <;> by_cases hk : k = k' <;> grind [insert]

theorem mem_insert {key : String} {a : α} {entries : Keyed α} {p : String × α}
    (h : p ∈ insert key a entries) : p = (key, a) ∨ p ∈ entries := by
  induction entries with
  | nil => exact .inl (by simpa [insert] using h)
  | cons q qs ih =>
    obtain ⟨k, old⟩ := q
    by_cases hk : k = key <;> grind [insert]

theorem mem_of_lookup_eq_some {key : String} {a : α} {entries : Keyed α} (h : entries.lookup key = some a) :
    (key, a) ∈ entries := by
  have ⟨_, _, he, _⟩ := List.lookup_eq_some_iff.mp h
  simp [he]

theorem insert_of_lookup_eq_some {key : String} {a : α} {entries : Keyed α}
    (h : entries.lookup key = some a) : insert key a entries = entries := by
  induction entries with
  | nil => simp at h
  | cons p ps ih =>
    obtain ⟨k, old⟩ := p
    by_cases hk : k = key <;> grind [insert]

theorem insert_of_lookup_eq_none {key : String} {entries : Keyed α} (h : entries.lookup key = none)
    (a : α) : insert key a entries = entries ++ [(key, a)] := by
  induction entries with
  | nil => rfl
  | cons p ps ih =>
    obtain ⟨k, old⟩ := p
    by_cases hk : k = key <;> grind [insert]

theorem lookup_filterMap (f : String → Option α) (key : String) (keys : List String) :
    (keys.filterMap fun k => (f k).map (k, ·)).lookup key = if key ∈ keys then f key else none := by
  induction keys with
  | nil => rfl
  | cons k ks ih =>
    by_cases hk : key = k <;> cases hf : f k <;> grind

theorem foldl_insert (f : String → Option α) (keys : List String) :
    keys.foldl (fun entries k => (f k).elim entries (insert k · entries)) [] =
      keys.eraseDups.filterMap fun k => (f k).map (k, ·) := by
  suffices h : ∀ seen : List String, keys.foldl (fun entries k => (f k).elim entries (insert k · entries))
      (seen.eraseDups.filterMap fun k => (f k).map (k, ·)) =
      (seen ++ keys).eraseDups.filterMap fun k => (f k).map (k, ·) from h []
  induction keys with
  | nil => simp
  | cons k ks ih =>
    intro seen
    rw [List.foldl_cons, List.append_cons, ← ih]
    congr 1
    have hl := lookup_filterMap f k seen.eraseDups
    simp only [List.mem_eraseDups] at hl
    rw [List.eraseDups_append, List.filterMap_append]
    cases hf : f k with
    | none => by_cases hk : k ∈ seen <;> simp [List.removeAll, hk, hf]
    | some a =>
      by_cases hk : k ∈ seen
      · have hl := insert_of_lookup_eq_some (hl.trans (by simp [hk, hf]) : _ = some a)
        simpa [List.removeAll, hk] using hl
      · have hl := insert_of_lookup_eq_none (hl.trans (by simp [hk])) a
        simpa [List.removeAll, List.eraseDups_cons, hk, hf] using hl

end Keyed

end QueryGlean
