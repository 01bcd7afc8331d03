import Mathlib
import QueryGlean.Source.Item
import QueryGlean.Proofs.Source.Places

namespace QueryGlean

inductive ItemKind
  | element
  | attribute
  | taggedTemplate
  | call
  | identifier
  | declarator
  | exportDeclaration
  | other
deriving DecidableEq, Repr, Inhabited

def Item.kind : Item → ItemKind
  | .element _           => .element
  | .attribute _ _       => .attribute
  | .taggedTemplate _ _  => .taggedTemplate
  | .call _              => .call
  | .identifier _        => .identifier
  | .declarator _ _      => .declarator
  | .exportDeclaration _ => .exportDeclaration
  | .other               => .other

namespace Tree

def isOneOf (src : Source) (ks : List ItemKind) (t : Tree) : Bool :=
  ks.contains (Item.ofTree src t).kind

def at? (t : Tree) : List ℕ → Option Tree
  | []      => some t
  | i :: is => t.children[i]?.bind (at? · is)

-- No node above the position stops a traversal.
def IsReached (stops : Tree → Bool) (t : Tree) (is : List ℕ) : Prop :=
  ∀ js, js <+: is → js ≠ is → ∀ u, t.at? js = some u → stops u = false

-- These are the nodes at the positions that have the property, in preorder, each position taken once.
def AreInPreorder (t : Tree) (P : List ℕ → Prop) (nodes : List Tree) : Prop :=
  ∃ positions : List (List ℕ), positions.Pairwise (· < ·) ∧
    (∀ is, is ∈ positions ↔ (t.at? is).isSome ∧ P is) ∧ positions.map t.at? = nodes.map some

def Place.position (p : Place) : List ℕ :=
  p.above.map (·.passed.length)

variable {stops : Tree → Bool} {t u c parent : Tree} {passed cs : List Tree} {p q : Place} {i : ℕ} {is : List ℕ}

@[simp]
theorem position_under (s : Step) (p : Place) : (p.under s).position = s.passed.length :: p.position :=
  rfl

mutual

theorem at?_position : (t : Tree) → ∀ p ∈ t.places, t.at? p.position = some p.node
  | node k r s e cs => by
    intro p hp
    rw [places] at hp
    cases List.mem_cons.mp hp
    case inl h => subst h; rfl
    case inr h => exact at?_position_among (node k r s e cs) [] cs rfl p h

theorem at?_position_among (parent : Tree) (passed : List Tree) :
    (cs : List Tree) → parent.children = passed ++ cs →
      ∀ p ∈ placesAmong parent passed cs, parent.at? p.position = some p.node
  | [], _ => by simp [placesAmong]
  | c :: cs, h => by
    intro p hp
    rw [placesAmong] at hp
    cases List.mem_append.mp hp
    case inl hp =>
      obtain ⟨q, hq, rfl⟩ := List.mem_map.mp hp
      simpa [at?, h] using at?_position c q hq
    case inr hp => exact at?_position_among parent (passed ++ [c]) cs (by simp [h]) p hp

end

theorem under_mem_placesAmong (hc : cs[i]? = some c) (hp : p ∈ c.places) :
    p.under ⟨parent, passed ++ cs.take i, c⟩ ∈ placesAmong parent passed cs := by
  induction cs generalizing i passed
  case nil => simp at hc
  case cons d cs hi =>
    rw [placesAmong, List.mem_append]
    cases i
    case zero =>
      cases hc
      exact .inl <| List.mem_map.mpr ⟨p, hp, by simp⟩
    case succ i => exact .inr <| by simpa using @hi (passed ++ [d]) i (by simpa using hc)

theorem exists_place_of_at? (h : t.at? is = some u) : ∃ p ∈ t.places, p.position = is := by
  induction is generalizing t
  case nil => exact ⟨⟨[], t⟩, by simp [places_eq], rfl⟩
  case cons i is hi =>
    obtain ⟨c, hc, hu⟩ := Option.bind_eq_some_iff.mp h
    obtain ⟨p, hp, he⟩ := hi hu
    refine ⟨p.under ⟨t, t.children.take i, c⟩, ?_, ?_⟩
    · rw [places_eq]
      exact List.mem_cons_of_mem _ <| @under_mem_placesAmong _ _ [] _ _ _ hc hp
    · have hl : i < t.children.length := (List.getElem?_eq_some_iff.mp hc).fst
      simp [he, hl.le]

-- The positions below some children begin with the numbers of these children.
theorem le_head_position (hp : p ∈ placesAmong parent passed cs) :
    ∃ i is, p.position = i :: is ∧ passed.length ≤ i := by
  induction cs generalizing passed
  case nil => simp [placesAmong] at hp
  case cons c cs hi =>
    rw [placesAmong] at hp
    cases List.mem_append.mp hp
    case inl hp =>
      obtain ⟨q, _, rfl⟩ := List.mem_map.mp hp
      exact ⟨_, _, position_under _ q, le_rfl⟩
    case inr hp =>
      obtain ⟨i, is, he, hl⟩ := hi hp
      rw [List.length_append] at hl
      exact ⟨i, is, he, Nat.le_of_add_right_le hl⟩

mutual

theorem pairwise_position_places : (t : Tree) → t.places.Pairwise (·.position < ·.position)
  | node k r s e cs => by
    rw [places, List.pairwise_cons]
    refine ⟨fun p hp => ?_, pairwise_position_placesAmong (node k r s e cs) [] cs⟩
    obtain ⟨i, is, he, _⟩ := le_head_position hp
    rw [he]
    exact List.nil_lt_cons i is

theorem pairwise_position_placesAmong (parent : Tree) (passed : List Tree) :
    (cs : List Tree) → (placesAmong parent passed cs).Pairwise (·.position < ·.position)
  | [] => by simp [placesAmong]
  | c :: cs => by
    rw [placesAmong, List.pairwise_append]
    refine ⟨?_, pairwise_position_placesAmong parent (passed ++ [c]) cs, fun p hp q hq => ?_⟩
    · refine List.pairwise_map.mpr <| (pairwise_position_places c).imp fun h => ?_
      exact List.cons_lt_cons_iff.mpr <| .inr ⟨rfl, h⟩
    · obtain ⟨p, _, rfl⟩ := List.mem_map.mp hp
      obtain ⟨i, is, he, hl⟩ := le_head_position hq
      rw [List.length_append] at hl
      rw [he, position_under]
      exact List.cons_lt_cons_iff.mpr <| .inl hl

end

theorem isReached_nil : t.IsReached stops [] :=
  fun _ hp hn => absurd (List.prefix_nil.mp hp) hn

theorem isReached_cons (hc : t.children[i]? = some c) :
    t.IsReached stops (i :: is) ↔ stops t = false ∧ c.IsReached stops is := by
  constructor
  case mp =>
    refine fun h => ⟨h [] List.nil_prefix (List.cons_ne_nil i is).symm t rfl, fun js hp hn u hu => ?_⟩
    exact h (i :: js) (List.cons_prefix_cons.mpr ⟨rfl, hp⟩) (by simpa using hn) u (by simpa [at?, hc] using hu)
  case mpr =>
    intro ⟨ht, h⟩ js hp hn u hu
    cases js
    case nil => cases hu; exact ht
    case cons j js =>
      obtain ⟨rfl, hq⟩ := List.cons_prefix_cons.mp hp
      exact h js hq (by simpa using hn) u (by simpa [at?, hc] using hu)

mutual

theorem isOpen_iff_isReached (stops : Tree → Bool) :
    (t : Tree) → ∀ p ∈ t.places, p.isOpen stops ↔ t.IsReached stops p.position
  | node k r s e cs => by
    intro p hp
    rw [places] at hp
    cases List.mem_cons.mp hp
    case inl h =>
      subst h
      exact iff_of_true rfl isReached_nil
    case inr h => exact isOpen_iff_isReached_among stops (node k r s e cs) [] cs rfl p h

theorem isOpen_iff_isReached_among (stops : Tree → Bool) (parent : Tree) (passed : List Tree) :
    (cs : List Tree) → parent.children = passed ++ cs →
      ∀ p ∈ placesAmong parent passed cs, p.isOpen stops ↔ parent.IsReached stops p.position
  | [], _ => by simp [placesAmong]
  | c :: cs, h => by
    intro p hp
    rw [placesAmong] at hp
    cases List.mem_append.mp hp
    case inl hp =>
      obtain ⟨q, hq, rfl⟩ := List.mem_map.mp hp
      have hc : parent.children[passed.length]? = some c := by simp [h]
      rw [position_under, isReached_cons hc, ← isOpen_iff_isReached stops c q hq]
      simp
    case inr hp => exact isOpen_iff_isReached_among stops parent (passed ++ [c]) cs (by simp [h]) p hp

end

theorem areInPreorder_walkUntil (stops : Tree → Bool) (t : Tree) :
    t.AreInPreorder (t.IsReached stops) (t.walkUntil stops) := by
  refine ⟨(t.places.filter (·.isOpen stops)).map (·.position), ?_, fun is => ?_, ?_⟩
  case refine_1 => exact List.pairwise_map.mpr <| (pairwise_position_places t).sublist List.filter_sublist
  case refine_2 =>
    constructor
    case mp =>
      intro h
      obtain ⟨p, hp, rfl⟩ := List.mem_map.mp h
      obtain ⟨hp, ho⟩ := List.mem_filter.mp hp
      exact ⟨by simp [at?_position t p hp], (isOpen_iff_isReached stops t p hp).mp ho⟩
    case mpr =>
      intro ⟨hs, hr⟩
      obtain ⟨u, hu⟩ := Option.isSome_iff_exists.mp hs
      obtain ⟨p, hp, rfl⟩ := exists_place_of_at? hu
      exact List.mem_map_of_mem <| List.mem_filter.mpr ⟨hp, (isOpen_iff_isReached stops t p hp).mpr hr⟩
  case refine_3 =>
    rw [walkUntil_eq_places, List.map_map, List.map_map]
    exact List.map_congr_left fun p hp => at?_position t p (List.mem_filter.mp hp).left

theorem areInPreorder_walk (t : Tree) : t.AreInPreorder (fun _ => True) t.walk := by
  obtain ⟨positions, ho, hm, he⟩ := areInPreorder_walkUntil (fun _ => false) t
  exact ⟨positions, ho, fun is => (hm is).trans <| and_congr_right fun _ => iff_true_intro fun _ _ _ _ _ => rfl, he⟩

theorem walkUntil_sublist_walk (stops : Tree → Bool) (t : Tree) : (t.walkUntil stops).Sublist t.walk := by
  rw [walkUntil_eq_places, walk_eq_places]
  exact List.filter_sublist.map _

structure Loop where
  seen  : List Tree
  stack : List Tree
deriving Repr, Inhabited

def Loop.turn (stops : Tree → Bool) : Loop → Loop
  | ⟨seen, []⟩         => ⟨seen, []⟩
  | ⟨seen, t :: stack⟩ => ⟨t :: seen, (if stops t then [] else t.children) ++ stack⟩

-- The invariant of the loop: what is on the stack comes to be seen in preorder, a node in each turn.
theorem iterate_turn (stops : Tree → Bool) (seen stack : List Tree) :
    (Loop.turn stops)^[(preordersUntil stops stack).length] ⟨seen, stack⟩ =
      ⟨(preordersUntil stops stack).reverse ++ seen, []⟩ := by
  fun_induction visit stops seen stack
  case case1 => rfl
  case case2 seen t stack hs hi =>
    rw [preordersUntil, preorderUntil_eq, if_pos hs, List.singleton_append, List.length_cons, Function.iterate_succ_apply]
    simp [Loop.turn, hs, hi]
  case case3 seen t stack hs hi =>
    rw [preordersUntil, preorderUntil_eq, if_neg hs, List.cons_append, ← preordersUntil_append, List.length_cons,
      Function.iterate_succ_apply]
    simp [Loop.turn, hs, hi]

theorem iterate_turn_walkUntil (stops : Tree → Bool) (t : Tree) :
    (Loop.turn stops)^[(t.walkUntil stops).length] ⟨[], [t]⟩ = ⟨(t.walkUntil stops).reverse, []⟩ := by
  have h := iterate_turn stops [] [t]
  rw [preordersUntil, preordersUntil, List.append_nil, List.append_nil] at h
  rwa [walkUntil_eq_preorderUntil]

theorem length_visit (seen stack : List Tree) :
    (visit (fun _ => false) seen stack).length = seen.length + sizes stack := by
  fun_induction visit (fun _ => false) seen stack
  case case1 => simp [sizes]
  case case2 => contradiction
  case case3 hi =>
    rw [hi, sizes_append, List.length_cons, sizes, size_eq]
    omega

theorem length_walk (t : Tree) : t.walk.length = t.size := by
  simp [walk, walkUntil, length_visit, sizes]

theorem traversals_exact (src : Source) (ks : List ItemKind) (t : Tree) :
    let stops := isOneOf src ks
    t.walk = t.preorder ∧ t.AreInPreorder (fun _ => True) t.walk ∧
    t.AreInPreorder (t.IsReached stops) (t.walkUntil stops) ∧ (t.walkUntil stops).Sublist t.walk ∧
    t.walkUntil (isOneOf src []) = t.walk ∧
    (Loop.turn fun _ => false)^[t.size] ⟨[], [t]⟩ = ⟨t.walk.reverse, []⟩ ∧
    ∃ n ≤ t.size, (Loop.turn stops)^[n] ⟨[], [t]⟩ = ⟨(t.walkUntil stops).reverse, []⟩ := by
  intro stops
  have hs := walkUntil_sublist_walk stops t
  refine ⟨walkUntil_eq_preorderUntil _ t, areInPreorder_walk t, areInPreorder_walkUntil _ t, hs, rfl, ?whole, ?pruned⟩
  case whole  => exact length_walk t ▸ iterate_turn_walkUntil _ t
  case pruned => exact ⟨_, length_walk t ▸ hs.length_le, iterate_turn_walkUntil _ t⟩

end Tree

end QueryGlean
