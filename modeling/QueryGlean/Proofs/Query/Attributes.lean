import Mathlib
import QueryGlean.Proofs.Query.Shapes
import QueryGlean.Proofs.Source.Places

namespace QueryGlean

def Sighting.isFrom (kind : FragmentKind) (usage : String) : Sighting → Prop
  | .found f      => f.kind = kind
  | .unresolved r => r.usage = usage

namespace Matcher

open QueryGlean.Tree (Place)

variable (m : Matcher) (src : Source)

def isComponent (t : Tree) : Bool :=
  match Item.ofTree src t with
  | .element name => name = some m.settings.component
  | _ => false

def componentUsage : String :=
  s!"<{m.settings.component}>"

def attributeSightings (t : Tree) : List Sighting :=
  match Item.ofTree src t with
  | .attribute name (some value) =>
    if name = m.settings.queryAttribute then
      m.resolve src .componentQuery m.componentUsage [m.settings.tagName] value
    else []
  | _ => []

-- The number of query components that a place lies in.
def componentsAround (p : Place) : ℕ :=
  p.above.countP fun s => m.isComponent src s.parent

-- Whether an attribute stands in the opening tag of a query component. A component that closes itself is its
-- own opening tag.
def isOwn (p : Place) : Bool :=
  match p.above.reverse with
  | []          => false
  | [tag]       => m.isComponent src tag.parent
  | tag :: e :: _ => m.isComponent src tag.parent || tag.parent.kind = .openingTag && m.isComponent src e.parent

variable {m src} {s : Sighting} {t root : Tree} {p : Place}

theorem coe_flatMap {α β : Type*} (f : α → List β) (l : List α) :
    (↑(l.flatMap f) : Multiset β) = (l.map fun a => (↑(f a) : Multiset β)).sum := by
  induction l
  case nil        => rfl
  case cons a l h => rw [List.flatMap_cons, ← Multiset.coe_add, h, List.map_cons, List.sum_cons]

theorem attributeSightings_of_isComponent (h : m.isComponent src t) : m.attributeSightings src t = [] := by
  unfold isComponent at h
  unfold attributeSightings
  split at h
  case h_1 name hi => rw [hi]
  case h_2         => cases h

theorem elementSightings_eq (t : Tree) : m.elementSightings src t = t.walk.flatMap (m.attributeSightings src) :=
  rfl

theorem componentSightings_eq (root : Tree) :
    m.componentSightings src root =
      root.walk.flatMap fun t => if m.isComponent src t then m.elementSightings src t else [] := by
  refine List.flatMap_congr fun t _ => ?_
  unfold isComponent
  split <;> simp_all

theorem sum_ite_eq_countP {M : Type*} [AddCommMonoid M] {α : Type*} (q : α → Bool) (x : M) (l : List α) :
    (l.map fun a => if q a then x else 0).sum = l.countP q • x := by
  induction l
  case nil        => simp
  case cons a l h => by_cases hq : q a <;> simp [hq, h, succ_nsmul, add_comm]

-- What nodes give below a query component counts once for every component around them.
theorem sum_components {M : Type*} [AddCommMonoid M] (g : Tree → M) (hg : ∀ t, m.isComponent src t → g t = 0)
    (root : Tree) :
    (root.walk.map fun t => if m.isComponent src t then (t.walk.map g).sum else 0).sum =
      (root.places.map fun p => m.componentsAround src p • g p.node).sum := by
  let below (t u : Tree) : M := if m.isComponent src t then g u else 0
  calc
    _ = (root.places.map fun p => (p.node.places.map fun q => below q.top q.node).sum).sum := by
      rw [Tree.walk_eq_places, List.map_map]
      refine congrArg List.sum (List.map_congr_left fun p _ => ?_)
      have ht : p.node.places.map (fun q => below q.top q.node) = p.node.places.map fun q => below p.node q.node :=
        List.map_congr_left fun q hq => by rw [Tree.top_of_mem_places hq]
      rw [Function.comp_apply, ht]
      by_cases hc : m.isComponent src p.node <;> simp [below, hc, Tree.walk_eq_places, Function.comp_def]
    _ = (root.places.map fun p => ∑ i ∈ Finset.range (p.above.length + 1), below (p.drop i).top p.node).sum :=
      Tree.sum_places_places (fun _ q => below q.top q.node) root
    _ = _ := by
      refine congrArg List.sum (List.map_congr_left fun p _ => ?_)
      rw [Tree.sum_tops fun t => below t p.node]
      simp only [below, sum_ite_eq_countP fun s : Tree.Step => m.isComponent src s.parent]
      rw [← componentsAround, ite_eq_right_iff.mpr (hg p.node), add_zero]

theorem componentSightings_eq_sum (root : Tree) :
    (m.componentSightings src root : Multiset Sighting) =
      (root.places.map fun p => m.componentsAround src p • (m.attributeSightings src p.node : Multiset Sighting)).sum := by
  rw [← sum_components (fun t => (m.attributeSightings src t : Multiset Sighting))
    fun t ht => by rw [attributeSightings_of_isComponent ht, Multiset.coe_nil], componentSightings_eq, coe_flatMap]
  refine congrArg List.sum (List.map_congr_left fun t _ => ?_)
  by_cases hc : m.isComponent src t <;> simp [hc, elementSightings_eq, coe_flatMap]

theorem mem_sum_map {α β : Type*} {f : α → Multiset β} {l : List α} {b : β} :
    b ∈ (l.map f).sum ↔ ∃ a ∈ l, b ∈ f a := by
  have h : b ∈ Multiset.bind (l : Multiset α) f ↔ ∃ a ∈ l, b ∈ f a := Multiset.mem_bind
  rwa [Multiset.bind, Multiset.join, Multiset.map_coe, Multiset.sum_coe] at h

theorem mem_componentSightings :
    s ∈ m.componentSightings src root ↔
      ∃ p ∈ root.places, 0 < m.componentsAround src p ∧ s ∈ m.attributeSightings src p.node := by
  rw [← Multiset.mem_coe, componentSightings_eq_sum, mem_sum_map]
  refine exists_congr fun p => and_congr_right fun _ => ?_
  rcases (m.componentsAround src p).eq_zero_or_pos with h | h
  case inl => simp [h]
  case inr => rw [Multiset.mem_nsmul_of_ne_zero h.ne', Multiset.mem_coe, and_iff_right h]

theorem isFrom_of_mem_resolve {kind : FragmentKind} {usage : String} {ignored : List String}
    (h : s ∈ m.resolve src kind usage ignored t) : s.isFrom kind usage := by
  obtain ⟨u, _, h⟩ := List.mem_flatMap.mp h
  unfold resolveNode at h
  split at h
  case h_1 tag template _ =>
    dsimp only at h
    split at h
    case isTrue  => exact List.mem_singleton.mp h ▸ rfl
    case isFalse => cases h
  case h_2 name _ =>
    split at h
    case isTrue => cases h
    case isFalse =>
      unfold resolveName at h
      split at h
      case h_1 => exact List.mem_singleton.mp h ▸ rfl
      case h_2 =>
        obtain ⟨T, _, rfl⟩ := List.mem_map.mp h
        rfl
  case h_3 => cases h

theorem isFrom_of_mem_componentSightings (h : s ∈ m.componentSightings src root) :
    s.isFrom .componentQuery m.componentUsage := by
  obtain ⟨p, _, _, h⟩ := mem_componentSightings.mp h
  unfold attributeSightings at h
  split at h
  case h_1 =>
    split at h
    case isTrue  => exact isFrom_of_mem_resolve h
    case isFalse => cases h
  case h_2 => cases h

theorem isFrom_of_mem_hookSightings (h : s ∈ m.hookSightings src root) :
    s.isFrom .hookQuery m.settings.hookName := by
  obtain ⟨c, _, h⟩ := List.mem_flatMap.mp h
  split at h
  case h_1 =>
    split at h
    case isTrue  => exact isFrom_of_mem_resolve h
    case isFalse => cases h
  case h_2 => cases h

theorem found_of_mem_pageSightings (h : s ∈ m.pageSightings src root) : ∃ T, s = .found ⟨.pageQuery, T⟩ := by
  obtain ⟨e, _, h⟩ := List.mem_flatMap.mp h
  split at h
  case h_1 =>
    obtain ⟨T, _, h⟩ := List.mem_filterMap.mp h
    split at h
    case isTrue  => exact ⟨T, (Option.some.inj h).symm⟩
    case isFalse => cases h
  case h_2 => cases h

theorem queryAttributes_exact (settings : Settings) (src : Source) (root : Tree) :
    let m := ofTree settings src root
    (∃ others, m.locate src root = m.componentSightings src root ++ others ∧
      (∀ s ∈ m.componentSightings src root, s.isFrom .componentQuery m.componentUsage) ∧
      ∀ s ∈ others, ∃ k ≠ FragmentKind.componentQuery, s.isFrom k settings.hookName) ∧
    (m.componentSightings src root : Multiset Sighting) =
      (root.places.map fun p => m.componentsAround src p • (m.attributeSightings src p.node : Multiset Sighting)).sum ∧
    ((∀ p ∈ root.places, 0 < m.componentsAround src p → m.attributeSightings src p.node ≠ [] → m.isOwn src p) →
      ∀ s ∈ m.componentSightings src root, ∃ p ∈ root.places, m.isOwn src p ∧ s ∈ m.attributeSightings src p.node) := by
  intro m
  refine ⟨⟨m.hookSightings src root ++ m.pageSightings src root, ?locate, ?components, ?others⟩, ?sum, ?own⟩
  case locate     => exact List.append_assoc ..
  case components => exact fun s => isFrom_of_mem_componentSightings
  case others =>
    intro s hs
    cases List.mem_append.mp hs
    case inl hs => exact ⟨.hookQuery, by decide, isFrom_of_mem_hookSightings hs⟩
    case inr hs =>
      obtain ⟨T, rfl⟩ := found_of_mem_pageSightings hs
      exact ⟨.pageQuery, by decide, rfl⟩
  case sum => exact componentSightings_eq_sum root
  case own =>
    intro h s hs
    have ⟨p, hp, hc, hs⟩ := mem_componentSightings.mp hs
    exact ⟨p, hp, h p hp hc (List.ne_nil_of_mem hs), hs⟩

end Matcher

-- <StaticQuery><Name query={value}/></StaticQuery>
def Source.nestedQuery (name value : String) : Source :=
  .ofString s!"<StaticQuery><{name} query=\x7b{value}\x7d/></StaticQuery>"

def Tree.nestedQuery (name : ℕ) (value : Tree) : Tree :=
  let called (start stop : ℕ) : Tree := .node .identifier (some .name) start stop []
  let query : Tree :=
    .node .attribute none (15 + name) (value.stop + 1) [
      .leaf .word (15 + name) (20 + name), .leaf .mark (20 + name) (21 + name),
      .node .phrase none (21 + name) (value.stop + 1) [
        .leaf .mark (21 + name) (22 + name), value, .leaf .mark value.stop (value.stop + 1)]]
  .node .element none 0 (value.stop + 17) [
    .node .openingTag (some .openingTag) 0 13 [.leaf .mark 0 1, called 1 12, .leaf .mark 12 13],
    .node .selfClosingElement none 13 (value.stop + 3) [
      .leaf .mark 13 14, called 14 (14 + name), query, .leaf .mark (value.stop + 1) (value.stop + 3)],
    .node .phrase none (value.stop + 3) (value.stop + 17) [
      .leaf .mark (value.stop + 3) (value.stop + 5), called (value.stop + 5) (value.stop + 16),
      .leaf .mark (value.stop + 16) (value.stop + 17)]]

namespace Matcher

theorem queryAttributes_exact_of_nested :
    let src := Source.nestedQuery "StaticQuery" "q"
    let root := Tree.nestedQuery 11 (.leaf .identifier 33 34)
    let m := ofTree {} src root
    (∀ p ∈ root.places, 0 < m.componentsAround src p → m.attributeSightings src p.node ≠ [] → m.isOwn src p) ∧
      .unresolved ⟨"q", "<StaticQuery>"⟩ ∈ m.componentSightings src root ∧
      ∃ p ∈ root.places, m.isOwn src p ∧ .unresolved ⟨"q", "<StaticQuery>"⟩ ∈ m.attributeSightings src p.node := by
  intro src root m
  have ho : root.places.all fun p => (m.attributeSightings src p.node).isEmpty || m.isOwn src p := by decide +kernel
  have ho : ∀ p ∈ root.places, 0 < m.componentsAround src p → m.attributeSightings src p.node ≠ [] → m.isOwn src p := by
    intro p hp _ hn
    simpa [hn] using List.all_eq_true.mp ho p hp
  have hs : m.componentSightings src root =
      [.unresolved ⟨"q", "<StaticQuery>"⟩, .unresolved ⟨"q", "<StaticQuery>"⟩] := by cbv
  have hs : .unresolved ⟨"q", "<StaticQuery>"⟩ ∈ m.componentSightings src root := hs ▸ List.mem_cons_self
  exact ⟨ho, hs, (queryAttributes_exact {} src root).right.right ho _ hs⟩

-- The attribute of another element counts, for a warning as for a find.
theorem foreign_attribute_counts :
    let src₁ := Source.nestedQuery "Other" "q"
    let root₁ := Tree.nestedQuery 5 (.leaf .identifier 27 28)
    let src₂ := Source.nestedQuery "Other" "graphql\x60\x7ba\x7d\x60"
    let root₂ := Tree.nestedQuery 5 (TaggedTemplate.spanning 27 39).node
    let m₁ := ofTree {} src₁ root₁
    let m₂ := ofTree {} src₂ root₂
    (root₁.places.all fun p => !m₁.isOwn src₁ p || (m₁.attributeSightings src₁ p.node).isEmpty) ∧
      (m₁.locate src₁ root₁).filterMap Sighting.unresolved? = [⟨"q", "<StaticQuery>"⟩] ∧
    (root₂.places.all fun p => !m₂.isOwn src₂ p || (m₂.attributeSightings src₂ p.node).isEmpty) ∧
      (m₂.finds src₂ root₂).map (·.kind) = [.componentQuery] := by
  refine ⟨?_, ?_, ?_, ?_⟩ <;> decide +kernel

end Matcher

end QueryGlean
