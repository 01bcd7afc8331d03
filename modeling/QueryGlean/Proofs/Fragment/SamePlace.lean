import Mathlib
import QueryGlean.Proofs.Fragment.Firsts
import QueryGlean.Proofs.Fragment.LocationKey

namespace QueryGlean

abbrev Location := Int × Int

namespace Location

def key (l : Location) : String :=
  locationKey l.1 l.2

theorem key_injective : Function.Injective key :=
  fun _ _ h => Prod.ext_iff.mpr (eq_of_locationKey_eq h)

end Location

namespace Fragment

def located (p : Location × Fragment) : Fragment :=
  { p.2 with locationKey := p.1.key }

def firstsLocated (ps : List (Location × Fragment)) : List (Location × Fragment) :=
  (ps.zipIdx.filter fun p => p.1.1 ∉ (ps.take p.2).map (·.1)).map (·.1)

theorem map_locationKey_located (ps : List (Location × Fragment)) :
    (ps.map located).map (·.locationKey) = (ps.map (·.1)).map Location.key := by
  simp [located]

theorem firsts_map_located (ps : List (Location × Fragment)) :
    firsts (ps.map located) = (firstsLocated ps).map located := by
  have same (l : Location) (n : ℕ) :
      l.key ∈ ((ps.map located).take n).map (·.locationKey) ↔ l ∈ (ps.take n).map (·.1) := by
    rw [← List.map_take, map_locationKey_located, List.mem_map_of_injective Location.key_injective]
  rw [firsts, firstsLocated, List.zipIdx_map, List.filter_map, List.map_map, List.map_map]
  refine congrArg _ (List.filter_congr fun p _ => ?_)
  simp only [Function.comp_apply, Prod.map, id_eq]
  exact decide_eq_decide.mpr (not_congr (same p.1.1 p.2))

end Fragment

theorem locationKey_exact (a b c d : Int) (ps : List (Location × Fragment)) :
    (locationKey a b = locationKey c d ↔ a = c ∧ b = d) ∧
    Fragment.dedupe (ps.map Fragment.located) = (Fragment.firstsLocated ps).map Fragment.located :=
  ⟨locationKey_eq_iff, (Fragment.dedupe_eq_firsts _).trans (Fragment.firsts_map_located ps)⟩

end QueryGlean
