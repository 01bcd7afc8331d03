import Mathlib
import QueryGlean.Proofs.Fragment.Normalize
import QueryGlean.Proofs.Query.Attributes
import QueryGlean.Proofs.Source.Item

namespace QueryGlean.Matcher

open QueryGlean.Tree (Place)
open Finset (range)

variable (m : Matcher) (src : Source)

def isQueryAttribute (t : Tree) : Bool :=
  match Item.ofTree src t with
  | .attribute name _ => name = m.settings.queryAttribute
  | _ => false

def isHookCall (t : Tree) : Bool :=
  match Item.ofTree src t with
  | .call callee =>
    callee.kind = .identifier && callee.text src = m.settings.hookName && m.referencesModule m.settings.hookName
  | _ => false

-- Whether none of the templates that a name is declared as is a query.
def isUnknown (name : String) : Bool :=
  ((m.scope.templatesFor name).filter (m.isQueryTag src)).isEmpty

def warningAt (usage : String) (ignored : List String) (t : Tree) : Multiset Unresolved :=
  match Item.ofTree src t with
  | .identifier name => if name ∉ ignored ∧ m.isUnknown src name then {⟨name, usage⟩} else 0
  | _ => 0

-- Whether the steps to a place begin at a query attribute, enter its value and pass no template.
def entersQuery (p : Place) : Bool :=
  match p.above with
  | []     => false
  | s :: _ => m.isQueryAttribute src s.parent && s.entersNamed 1 && p.isOpen (·.isTaggedTemplate src)

def entersHook (p : Place) : Bool :=
  m.isHookCall src p.top && p.isOpen (·.isTaggedTemplate src)

-- The number of ways to come to a place: a query attribute above it and a component around that.
def componentVisits (p : Place) : ℕ :=
  ∑ i ∈ range (p.above.length + 1),
    if m.entersQuery src (p.drop i) then (p.above.take i).countP fun s => m.isComponent src s.parent else 0

def hookVisits (p : Place) : ℕ :=
  ∑ i ∈ range (p.above.length + 1), if m.entersHook src (p.drop i) then 1 else 0

variable {m src} {t u root : Tree} {p : Place} {usage : String} {ignored : List String}

theorem unresolved_resolveName (kind : FragmentKind) (usage name : String) :
    (m.resolveName src kind usage name).filterMap Sighting.unresolved? =
      if m.isUnknown src name then [⟨name, usage⟩] else [] := by
  unfold resolveName isUnknown
  cases (m.scope.templatesFor name).filter (m.isQueryTag src)
  case nil  => rfl
  case cons => simp [Sighting.unresolved?]

theorem unresolved_resolveNode (kind : FragmentKind) (usage : String) (ignored : List String) (t : Tree) :
    ((m.resolveNode src kind usage ignored t).filterMap Sighting.unresolved? : Multiset Unresolved) =
      m.warningAt src usage ignored t := by
  unfold resolveNode warningAt
  cases Item.ofTree src t
  case taggedTemplate tag template =>
    dsimp only
    split_ifs <;> rfl
  case identifier name =>
    by_cases hn : name ∈ ignored
    case pos => simp [hn]
    case neg =>
      by_cases hu : m.isUnknown src name <;> simp [hn, hu, unresolved_resolveName]
  all_goals rfl

theorem unresolved_resolve (kind : FragmentKind) (usage : String) (ignored : List String) (t : Tree) :
    ((m.resolve src kind usage ignored t).filterMap Sighting.unresolved? : Multiset Unresolved) =
      (t.places.map fun p => if p.isOpen (·.isTaggedTemplate src) then m.warningAt src usage ignored p.node else 0).sum := by
  rw [resolve, List.filterMap_flatMap, coe_flatMap, Tree.walkUntil_eq_places]
  simp only [unresolved_resolveNode]
  generalize t.places = ps
  induction ps
  case nil => rfl
  case cons p ps hi => by_cases hp : p.isOpen (·.isTaggedTemplate src) <;> simp_all

theorem getElem?_namedChildren_of_attribute {name : String} {value? : Option Tree}
    (h : Item.ofTree src t = .attribute name value?) : t.namedChildren[1]? = value? := by
  cases Item.isOf h
  case «attribute» hc _ hv =>
    rw [hc, ← hv, List.head?_eq_getElem?]
    rfl

theorem isTaggedTemplate_of_isQueryAttribute (h : m.isQueryAttribute src t) : t.isTaggedTemplate src = false := by
  unfold isQueryAttribute at h
  unfold Tree.isTaggedTemplate Item.isTaggedTemplate Item.taggedTemplate?
  split at h
  case h_1 hi => rw [hi]; rfl
  case h_2    => cases h

theorem sightings_of_not_isQueryAttribute (h : m.isQueryAttribute src t = false) : m.attributeSightings src t = [] := by
  unfold isQueryAttribute at h
  unfold attributeSightings
  split
  case h_1 name v hi =>
    simp only [hi, decide_eq_false_iff_not] at h
    exact if_neg h
  case h_2 => rfl

theorem unresolved_attributeSightings (t : Tree) :
    ((m.attributeSightings src t).filterMap Sighting.unresolved? : Multiset Unresolved) =
      (t.places.map fun p =>
        if m.entersQuery src p then m.warningAt src m.componentUsage [m.settings.tagName] p.node else 0).sum := by
  let warning (p : Place) : Multiset Unresolved := m.warningAt src m.componentUsage [m.settings.tagName] p.node
  let inside (p : Place) : Multiset Unresolved := if p.isOpen (·.isTaggedTemplate src) then warning p else 0
  -- All places of the attribute are below it, so they differ only in the rest of their steps.
  have enters {s : Tree.Step} {l : List Tree.Step} {u : Tree} (hp : ⟨s :: l, u⟩ ∈ t.places) : s.parent = t :=
    Tree.top_of_mem_places (p := ⟨s :: l, u⟩) hp
  cases ha : m.isQueryAttribute src t
  case false =>
    rw [sightings_of_not_isQueryAttribute ha]
    refine (List.sum_eq_zero fun x hx => ?_).symm
    obtain ⟨⟨l, u⟩, hp, rfl⟩ := List.mem_map.mp hx
    cases l
    case nil  => rfl
    case cons => simp [entersQuery, enters hp, ha]
  case true =>
    calc
      _ = t.namedChildren[1]?.elim 0 fun v => (v.places.map inside).sum := by
        unfold isQueryAttribute at ha
        split at ha
        case h_2 => cases ha
        case h_1 name value? hi =>
          have hn : name = m.settings.queryAttribute := of_decide_eq_true ha
          rw [getElem?_namedChildren_of_attribute hi, attributeSightings, hi]
          cases value?
          case none   => rfl
          case some v => simp only [hn, ↓reduceIte, unresolved_resolve, Option.elim_some, inside, warning]
      _ = (t.places.map (Place.belowNamed 1 inside)).sum := (Tree.sum_places_belowNamed inside 1 t).symm
      _ = _ := by
        refine congrArg List.sum (List.map_congr_left fun ⟨l, u⟩ hp => ?_)
        cases l
        case nil => rfl
        case cons s l =>
          have ht := isTaggedTemplate_of_isQueryAttribute ha
          by_cases hs : s.entersNamed 1 <;>
            simp [Place.belowNamed, entersQuery, inside, warning, Place.isOpen, enters hp, ha, ht, hs]

theorem unresolved_componentSightings (root : Tree) :
    ((m.componentSightings src root).filterMap Sighting.unresolved? : Multiset Unresolved) =
      (root.places.map fun p =>
        m.componentVisits src p • m.warningAt src m.componentUsage [m.settings.tagName] p.node).sum := by
  let warnings (t : Tree) : Multiset Unresolved := (m.attributeSightings src t).filterMap Sighting.unresolved?
  let visit (l : List Tree.Step) (p : Place) : Multiset Unresolved :=
    if m.entersQuery src p then l.countP (fun s => m.isComponent src s.parent) •
      m.warningAt src m.componentUsage [m.settings.tagName] p.node else 0
  -- From sums over components and what is below them to one sum over the places of the tree.
  calc
    _ = (root.walk.map fun t => if m.isComponent src t then (t.walk.map warnings).sum else 0).sum := by
      rw [componentSightings_eq, List.filterMap_flatMap, coe_flatMap]
      refine congrArg List.sum (List.map_congr_left fun t _ => ?_)
      by_cases hc : m.isComponent src t
      case neg => simp [hc]
      case pos => simp [hc, elementSightings_eq, List.filterMap_flatMap, coe_flatMap, warnings]
    _ = (root.places.map fun p => m.componentsAround src p • warnings p.node).sum :=
      sum_components warnings (fun t ht => by simp [warnings, attributeSightings_of_isComponent ht]) root
    _ = (root.places.map fun p => (p.node.places.map (visit p.above)).sum).sum := by
      refine congrArg List.sum (List.map_congr_left fun p _ => ?_)
      rw [show warnings p.node = _ from unresolved_attributeSightings p.node, List.smul_sum, List.map_map]
      refine congrArg List.sum (List.map_congr_left fun q _ => ?_)
      rw [Function.comp_apply, smul_ite, smul_zero]
      rfl
    _ = _ := by
      rw [Tree.sum_places_places]
      refine congrArg List.sum (List.map_congr_left fun p _ => ?_)
      simp only [componentVisits, Finset.sum_smul, ite_smul, zero_smul]
      rfl

theorem hookSightings_eq (root : Tree) :
    m.hookSightings src root = root.walk.flatMap fun t =>
      if m.isHookCall src t then
        m.resolve src .hookQuery m.settings.hookName [m.settings.tagName, m.settings.hookName] t
      else [] := by
  refine List.flatMap_congr fun t _ => ?_
  unfold isHookCall
  split <;> simp_all [and_assoc]

theorem unresolved_hookSightings (root : Tree) :
    ((m.hookSightings src root).filterMap Sighting.unresolved? : Multiset Unresolved) =
      (root.places.map fun p => m.hookVisits src p •
        m.warningAt src m.settings.hookName [m.settings.tagName, m.settings.hookName] p.node).sum := by
  let visit (p : Place) : Multiset Unresolved :=
    if m.entersHook src p then
      m.warningAt src m.settings.hookName [m.settings.tagName, m.settings.hookName] p.node else 0
  calc
    _ = (root.places.map fun p => (p.node.places.map visit).sum).sum := by
      rw [hookSightings_eq, List.filterMap_flatMap, coe_flatMap, Tree.walk_eq_places, List.map_map]
      refine congrArg List.sum (List.map_congr_left fun p _ => ?_)
      have ht : p.node.places.map visit = p.node.places.map fun q =>
          if m.isHookCall src p.node && q.isOpen (·.isTaggedTemplate src) then
            m.warningAt src m.settings.hookName [m.settings.tagName, m.settings.hookName] q.node else 0 :=
        List.map_congr_left fun q hq => by simp only [visit, entersHook, Tree.top_of_mem_places hq]
      rw [ht]
      by_cases hc : m.isHookCall src p.node <;> simp [hc, unresolved_resolve]
    _ = _ := by
      rw [Tree.sum_places_places fun _ => visit]
      refine congrArg List.sum (List.map_congr_left fun p _ => ?_)
      simp only [hookVisits, Finset.sum_smul, ite_smul, one_smul, zero_smul]
      rfl

theorem unresolved_pageSightings (root : Tree) : (m.pageSightings src root).filterMap Sighting.unresolved? = [] := by
  refine List.filterMap_eq_nil_iff.mpr fun s hs => ?_
  obtain ⟨T, rfl⟩ := found_of_mem_pageSightings hs
  rfl

variable {path : String} {d : Diagnostic}

theorem filter_unknown (settings : Settings) (path : String) (src : Source) (root : Tree) :
    (Fragment.ofTree settings path src root).2.filter (·.code = "unknown-query-variable") =
      (((ofTree settings src root).locate src root).filterMap Sighting.unresolved?).map (·.diagnostic path) := by
  unfold Fragment.ofTree
  dsimp only
  rw [List.filter_append, List.filter_eq_self.mpr, List.filter_eq_nil_iff.mpr, List.append_nil]
  case _ =>
    intro d hd
    rw [eq_globalTag_of_mem_normalizeAll hd]
    simp [Diagnostic.globalTag]
  case _ =>
    refine List.forall_mem_map.mpr fun r _ => ?_
    simp [Unresolved.diagnostic, Diagnostic.unknownQueryVariable]

theorem isUnknown_iff {settings : Settings} {name : String} :
    (ofTree settings src root).isUnknown src name ↔
      ¬∃ T, (ofTree settings src root).Sound src T ∧ Item.Declares src root name T := by
  rw [isUnknown, List.isEmpty_iff, List.filter_eq_nil_iff, not_exists]
  refine forall_congr' fun T => ?_
  rw [Scope.mem_templatesFor]
  constructor
  case mp  => exact fun h ⟨⟨ht, hq⟩, hd⟩ => h ⟨hd, ht⟩ hq
  case mpr => exact fun h ⟨hd, ht⟩ hq => h ⟨⟨ht, hq⟩, hd⟩

theorem unknownVariables_exact (settings : Settings) (path : String) (src : Source) (root : Tree) :
    let m := ofTree settings src root
    let hook := settings.hookName
    (∀ name, m.isUnknown src name ↔ ¬∃ T, m.Sound src T ∧ Item.Declares src root name T) ∧
    ((Fragment.ofTree settings path src root).2.filter (·.code = "unknown-query-variable") : Multiset Diagnostic) =
      (root.places.map fun p =>
        m.componentVisits src p • (m.warningAt src m.componentUsage [settings.tagName] p.node).map (·.diagnostic path) +
        m.hookVisits src p • (m.warningAt src hook [settings.tagName, hook] p.node).map (·.diagnostic path)).sum := by
  intro m hook
  refine ⟨fun name => isUnknown_iff, ?_⟩
  let diagnose := Multiset.mapAddMonoidHom fun r : Unresolved => r.diagnostic path
  calc
    _ = diagnose ((m.locate src root).filterMap Sighting.unresolved?) := by
      rw [filter_unknown]
      rfl
    _ = diagnose ((root.places.map fun p =>
          m.componentVisits src p • m.warningAt src m.componentUsage [settings.tagName] p.node).sum +
        (root.places.map fun p => m.hookVisits src p • m.warningAt src hook [settings.tagName, hook] p.node).sum) := by
      rw [locate, List.filterMap_append, List.filterMap_append, unresolved_pageSightings, List.append_nil,
        ← Multiset.coe_add, unresolved_componentSightings, unresolved_hookSightings]
    _ = _ := by
      rw [← List.sum_map_add, map_list_sum, List.map_map]
      refine congrArg List.sum (List.map_congr_left fun p _ => ?_)
      rw [Function.comp_apply, map_add, map_nsmul, map_nsmul]
      rfl

-- A query component in another one: the value of its attribute is looked at for both.
theorem warned_twice :
    let src := Source.nestedQuery "StaticQuery" "q"
    let root := Tree.nestedQuery 11 (.leaf .identifier 33 34)
    let d := Diagnostic.unknownQueryVariable "a.js" "q" "<StaticQuery>"
    (root.places.filter fun p => p.node.kind = .identifier ∧ p.node.text src = "q").length = 1 ∧
      (Fragment.ofTree {} "a.js" src root).2 = [d, d] := by
  refine ⟨?_, ?_⟩ <;> decide +kernel

end QueryGlean.Matcher
