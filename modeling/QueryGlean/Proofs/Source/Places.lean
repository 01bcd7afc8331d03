import Mathlib
import QueryGlean.Proofs.Source.Paths

namespace QueryGlean.Tree

structure Step where
  parent : Tree
  passed : List Tree
  child  : Tree

-- A place is a node together with the steps that lead to it, from the root down.
structure Place where
  above : List Step
  node  : Tree

namespace Place

def under (s : Step) (p : Place) : Place :=
  ⟨s :: p.above, p.node⟩

def top (p : Place) : Tree :=
  match p.above with
  | []     => p.node
  | s :: _ => s.parent

def drop (p : Place) (n : ℕ) : Place :=
  ⟨p.above.drop n, p.node⟩

def isOpen (stops : Tree → Bool) (p : Place) : Bool :=
  p.above.all fun s => !stops s.parent

end Place

mutual

def places : Tree → List Place
  | node k r s e cs => ⟨[], node k r s e cs⟩ :: placesAmong (node k r s e cs) [] cs

def placesAmong (parent : Tree) (passed : List Tree) : List Tree → List Place
  | []      => []
  | c :: cs => c.places.map (.under ⟨parent, passed, c⟩) ++ placesAmong parent (passed ++ [c]) cs

end

variable {stops : Tree → Bool} {s t u c : Tree} {p : Place}

theorem places_eq (t : Tree) : t.places = ⟨[], t⟩ :: placesAmong t [] t.children := by
  cases t
  rw [places, children]

theorem top_of_mem_placesAmong {passed cs : List Tree} (h : p ∈ placesAmong t passed cs) : p.top = t := by
  induction cs generalizing passed
  case nil => cases h
  case cons c cs hi =>
    cases List.mem_append.mp h
    case inl h =>
      obtain ⟨q, _, rfl⟩ := List.mem_map.mp h
      rfl
    case inr h => exact hi h

theorem top_of_mem_places (h : p ∈ t.places) : p.top = t := by
  rw [places_eq] at h
  cases h
  case head   => rfl
  case tail h => exact top_of_mem_placesAmong h

@[simp]
theorem node_under (s : Step) (p : Place) : (p.under s).node = p.node :=
  rfl

@[simp]
theorem isOpen_under (stops : Tree → Bool) (s : Step) (p : Place) :
    (p.under s).isOpen stops = (!stops s.parent && p.isOpen stops) :=
  List.all_cons

mutual

theorem preorderUntil_eq_places (stops : Tree → Bool) :
    (t : Tree) → preorderUntil stops t = (t.places.filter (·.isOpen stops)).map (·.node)
  | node k r s e cs => by
    rw [preorderUntil, places, preordersUntil_eq_places stops (node k r s e cs) [] cs]
    rfl

theorem preordersUntil_eq_places (stops : Tree → Bool) (parent : Tree) (passed : List Tree) :
    (cs : List Tree) → (if stops parent then [] else preordersUntil stops cs) =
      ((placesAmong parent passed cs).filter (·.isOpen stops)).map (·.node)
  | [] => by simp [preordersUntil, placesAmong]
  | c :: cs => by
    have hi := preordersUntil_eq_places stops parent (passed ++ [c]) cs
    have hc := preorderUntil_eq_places stops c
    rw [preordersUntil, placesAmong, List.filter_append, List.map_append, ← hi, List.filter_map, List.map_map]
    cases hs : stops parent <;> simp [Function.comp_def, hs, hc]

end

theorem walkUntil_eq_places (stops : Tree → Bool) (t : Tree) :
    t.walkUntil stops = (t.places.filter (·.isOpen stops)).map (·.node) :=
  (walkUntil_eq_preorderUntil stops t).trans (preorderUntil_eq_places stops t)

theorem walk_eq_places (t : Tree) : t.walk = t.places.map (·.node) := by
  rw [walk, walkUntil_eq_places, List.filter_eq_self.mpr fun p _ => by simp [Place.isOpen]]

variable {M : Type*} [AddCommMonoid M]

open Finset (range)

-- The cuts of the steps to a place below the first step: before that step, or further down.
theorem sum_cuts_under (f : List Step → Place → M) (s : Step) (p : Place) :
    ∑ i ∈ range ((p.under s).above.length + 1), f ((p.under s).above.take i) ((p.under s).drop i) =
      f [] (p.under s) + ∑ i ∈ range (p.above.length + 1), f (s :: p.above.take i) (p.drop i) := by
  rw [Place.under, List.length_cons, Finset.sum_range_succ', add_comm]
  rfl

mutual

theorem sum_places_places (f : List Step → Place → M) :
    (t : Tree) → (t.places.map fun p => (p.node.places.map (f p.above)).sum).sum =
      (t.places.map fun p => ∑ i ∈ range (p.above.length + 1), f (p.above.take i) (p.drop i)).sum
  | node k r s e cs => by
    have hi := sum_placesAmong_places f (node k r s e cs) [] cs
    rw [places, List.map_cons, List.sum_cons, List.map_cons, List.sum_cons, ← hi, places]
    simp [add_assoc, Place.drop]

theorem sum_placesAmong_places (f : List Step → Place → M) (parent : Tree) (passed : List Tree) :
    (cs : List Tree) → ((placesAmong parent passed cs).map (f [])).sum +
        ((placesAmong parent passed cs).map fun p => (p.node.places.map (f p.above)).sum).sum =
      ((placesAmong parent passed cs).map fun p =>
        ∑ i ∈ range (p.above.length + 1), f (p.above.take i) (p.drop i)).sum
  | [] => by simp [placesAmong]
  | c :: cs => by
    have hi := sum_placesAmong_places f parent (passed ++ [c]) cs
    have hc := sum_places_places (fun l => f (⟨parent, passed, c⟩ :: l)) c
    rw [placesAmong]
    simp only [List.map_append, List.sum_append, List.map_map, Function.comp_def, ← hi, sum_cuts_under,
      List.sum_map_add, ← hc]
    rw [add_add_add_comm]
    rfl

end

-- The cuts of the steps to a place begin at the nodes above it, and the last one at its own node.
theorem sum_tops (g : Tree → M) (p : Place) :
    ∑ i ∈ range (p.above.length + 1), g (p.drop i).top = (p.above.map fun s => g s.parent).sum + g p.node := by
  obtain ⟨l, u⟩ := p
  induction l
  case nil => simp [Place.drop, Place.top]
  case cons s l hi =>
    have hd (i : ℕ) : Place.drop ⟨s :: l, u⟩ (i + 1) = Place.drop ⟨l, u⟩ i := rfl
    rw [List.length_cons, Finset.sum_range_succ', List.map_cons, List.sum_cons, add_comm, add_assoc, ← hi]
    rfl

namespace Step

def entersNamed (n : ℕ) (s : Step) : Bool :=
  s.child.isNamed && s.passed.countP isNamed == n

end Step

def Place.belowNamed (n : ℕ) (f : Place → M) (p : Place) : M :=
  match p.above with
  | []     => 0
  | s :: l => if s.entersNamed n then f ⟨l, p.node⟩ else 0

theorem sum_placesAmong_belowNamed (f : Place → M) (n : ℕ) (passed cs : List Tree) :
    ((placesAmong t passed cs).map (Place.belowNamed n f)).sum =
      if passed.countP isNamed ≤ n then
        (cs.filter isNamed)[n - passed.countP isNamed]?.elim 0 fun v => (v.places.map f).sum
      else 0 := by
  induction cs generalizing passed
  case nil => simp [placesAmong]
  case cons c cs hi =>
    have here : ((c.places.map (.under ⟨t, passed, c⟩)).map (Place.belowNamed n f)).sum =
        if c.isNamed ∧ passed.countP isNamed = n then (c.places.map f).sum else 0 := by
      simp only [List.map_map, Function.comp_def, Place.under, Place.belowNamed, Step.entersNamed]
      by_cases hn : c.isNamed ∧ passed.countP isNamed = n <;> simp [hn]
    rw [placesAmong, List.map_append, List.sum_append, here, hi, List.countP_append, List.countP_singleton]
    cases hc : c.isNamed
    case false => simp [hc]
    case true =>
      rcases lt_trichotomy (passed.countP isNamed) n with h | rfl | h
      case inl =>
        have hs : n - passed.countP isNamed = n - (passed.countP isNamed + 1) + 1 := by omega
        simp [hc, h.ne, h.le, Nat.succ_le_of_lt h, hs]
      case inr.inl => simp [hc]
      case inr.inr => simp [h.ne', h.not_ge, (Nat.lt_succ_of_lt h).not_ge]

theorem sum_places_belowNamed (f : Place → M) (n : ℕ) (t : Tree) :
    (t.places.map (Place.belowNamed n f)).sum = t.namedChildren[n]?.elim 0 fun v => (v.places.map f).sum := by
  rw [places_eq, List.map_cons, List.sum_cons, sum_placesAmong_belowNamed]
  simp [Place.belowNamed, namedChildren]

end QueryGlean.Tree
