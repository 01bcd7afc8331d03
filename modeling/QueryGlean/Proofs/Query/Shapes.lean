import QueryGlean.Proofs.Scope
import QueryGlean.Query.Locate

namespace QueryGlean

open QueryGlean.Tree (Reaches)

def TaggedTemplate.spanning (start stop : Nat) : TaggedTemplate :=
  let tag := .node .identifier (some .callee) start (start + 7) []
  let template := .node .template (some .arguments) (start + 7) stop []
  ⟨.node .call none start stop [tag, template], tag, template⟩

namespace FragmentKind

def pass : FragmentKind → Nat
  | componentQuery => 0
  | hookQuery      => 1
  | pageQuery      => 2

theorem pass_injective {k₁ k₂ : FragmentKind} (h : k₁.pass = k₂.pass) : k₁ = k₂ := by
  cases k₁ <;> cases k₂ <;> simp_all [pass]

end FragmentKind

namespace Matcher

abbrev ofTree (settings : Settings) (src : Source) (root : Tree) : Matcher :=
  ⟨settings, Scope.ofTree src root⟩

variable (settings : Settings) (src : Source) (root : Tree)

-- What a node in place of a query offers, without a look into templates:
-- 1. the templates below it
-- 2. the templates that declarators give to the names below it, unless a name is ignored
def Offers (ignored : List String) (v : Tree) (t : TaggedTemplate) : Prop :=
  Reaches (Tree.isTaggedTemplate src) v t.node ∨
  ∃ x name, Reaches (Tree.isTaggedTemplate src) v x ∧ Item.ofTree src x = .identifier name ∧
    name ∉ ignored ∧ Item.Declares src root name t

def IsComponentQuery (t : TaggedTemplate) : Prop :=
  ∃ e a v, root.Contains e ∧ Item.ofTree src e = .element (some settings.component) ∧
    e.Contains a ∧ Item.ofTree src a = .attribute settings.queryAttribute (some v) ∧
    Offers src root [settings.tagName] v t

-- The hook has to be the one that the file imports. To be required does not count.
def IsHookQuery (t : TaggedTemplate) : Prop :=
  ∃ c callee b, root.Contains c ∧ Item.ofTree src c = .call callee ∧
    callee.kind = .identifier ∧ callee.text src = settings.hookName ∧
    (Scope.ofTree src root).binding? settings.hookName = some b ∧
    b.kind = .import' ∧ b.source = settings.moduleName ∧
    Offers src root [settings.tagName, settings.hookName] c t

def IsPageQuery (t : TaggedTemplate) : Prop :=
  ∃ e, root.Contains e ∧ Item.ofTree src e = .exportDeclaration false ∧ e.Contains t.node

def HasShape : FragmentKind → TaggedTemplate → Prop
  | .componentQuery => IsComponentQuery settings src root
  | .hookQuery      => IsHookQuery settings src root
  | .pageQuery      => IsPageQuery src root

variable {settings src root} {m : Matcher} {f : Find} {kind : FragmentKind} {usage name : String}
variable {ignored : List String} {v t : Tree}

-- A find is sound if its template is one of the file's own nodes and carries the tag.
structure Sound (m : Matcher) (src : Source) (t : TaggedTemplate) : Prop where
  template : TaggedTemplate.ofTree? src t.node = some t
  tagged   : m.isQueryTag src t

theorem found_mem_resolveName :
    .found f ∈ m.resolveName src kind usage name ↔
      f.kind = kind ∧ f.template ∈ m.scope.templatesFor name ∧ m.isQueryTag src f.template := by
  obtain ⟨k, t⟩ := f
  unfold resolveName
  split
  case _ h =>
    have : t ∉ (m.scope.templatesFor name).filter (m.isQueryTag src) := by simp [h]
    simp_all
  case _ =>
    simp only [List.mem_map, Sighting.found.injEq, Find.mk.injEq, List.mem_filter]
    exact ⟨fun ⟨_, h, hk, ht⟩ => ⟨hk.symm, ht ▸ h⟩, fun ⟨hk, h⟩ => ⟨t, h, hk.symm, rfl⟩⟩

theorem found_mem_resolveNode (hm : m.scope = Scope.ofTree src root) :
    .found f ∈ m.resolveNode src kind usage ignored t ↔
      f.kind = kind ∧ m.Sound src f.template ∧
        (f.template.node = t ∨
          ∃ name, Item.ofTree src t = .identifier name ∧ name ∉ ignored ∧
            Item.Declares src root name f.template) := by
  obtain ⟨k, T⟩ := f
  unfold resolveNode
  constructor
  case mp =>
    intro h
    split at h
    case _ tag template hi =>
      dsimp only at h
      split at h
      case isTrue hq =>
        simp only [List.mem_singleton, Sighting.found.injEq, Find.mk.injEq] at h
        obtain ⟨hk, hT⟩ := h
        subst hT
        exact ⟨hk, ⟨TaggedTemplate.ofTree?_eq_some_iff.mpr ⟨rfl, hi⟩, hq⟩, .inl rfl⟩
      case isFalse => simp at h
    case _ n hi =>
      split at h
      case isTrue => simp at h
      case isFalse hn =>
        have ⟨hk, ht, hq⟩ := found_mem_resolveName.mp h
        have ⟨hd, hT⟩ := Scope.mem_templatesFor.mp (hm ▸ ht)
        exact ⟨hk, ⟨hT, hq⟩, .inr ⟨n, hi, by simpa using hn, hd⟩⟩
    case _ => simp at h
  case mpr =>
    intro ⟨hk, ⟨hT, hq⟩, h⟩
    have ⟨_, hi⟩ := TaggedTemplate.ofTree?_eq_some_iff.mp hT
    cases h
    case inl h =>
      subst h
      simp_all
    case inr h =>
      have ⟨n, hi', hn, hd⟩ := h
      simp only [hi', List.contains_eq_mem, hn, decide_false, Bool.false_eq_true, ↓reduceIte]
      exact found_mem_resolveName.mpr ⟨hk, hm ▸ Scope.mem_templatesFor.mpr ⟨hd, hT⟩, hq⟩

theorem found_mem_resolve (hm : m.scope = Scope.ofTree src root) :
    .found f ∈ m.resolve src kind usage ignored v ↔
      f.kind = kind ∧ m.Sound src f.template ∧ Offers src root ignored v f.template := by
  simp only [resolve, List.mem_flatMap, Tree.mem_walkUntil, found_mem_resolveNode hm, Offers]
  constructor
  case mp =>
    rintro ⟨x, hx, hk, hs, h⟩
    refine ⟨hk, hs, ?_⟩
    cases h
    case inl h => exact .inl <| h ▸ hx
    case inr h =>
      obtain ⟨n, hi, hn, hd⟩ := h
      exact .inr ⟨x, n, hx, hi, hn, hd⟩
  case mpr =>
    rintro ⟨hk, hs, h⟩
    cases h
    case inl h => exact ⟨_, h, hk, hs, .inl rfl⟩
    case inr h =>
      obtain ⟨x, n, hx, hi, hn, hd⟩ := h
      exact ⟨x, hx, hk, hs, .inr ⟨n, hi, hn, hd⟩⟩

theorem found_mem_elementSightings :
    .found f ∈ (ofTree settings src root).elementSightings src t ↔
      f.kind = .componentQuery ∧ (ofTree settings src root).Sound src f.template ∧
        ∃ a v, t.Contains a ∧ Item.ofTree src a = .attribute settings.queryAttribute (some v) ∧
          Offers src root [settings.tagName] v f.template := by
  simp only [elementSightings, List.mem_flatMap, Tree.mem_walk]
  constructor
  case mp =>
    rintro ⟨a, ha, h⟩
    split at h
    case _ n v hi =>
      split at h
      case isTrue hn =>
        obtain ⟨hk, hs, ho⟩ := (found_mem_resolve rfl).mp h
        exact ⟨hk, hs, a, v, ha, hn ▸ hi, ho⟩
      case isFalse => simp at h
    case _ => simp at h
  case mpr =>
    rintro ⟨hk, hs, a, v, ha, hi, ho⟩
    refine ⟨a, ha, ?_⟩
    simp only [hi, ↓reduceIte]
    exact (found_mem_resolve rfl).mpr ⟨hk, hs, ho⟩

theorem found_mem_componentSightings :
    .found f ∈ (ofTree settings src root).componentSightings src root ↔
      f.kind = .componentQuery ∧ (ofTree settings src root).Sound src f.template ∧
        IsComponentQuery settings src root f.template := by
  simp only [componentSightings, List.mem_flatMap, Tree.mem_walk]
  constructor
  case mp =>
    rintro ⟨e, he, h⟩
    split at h
    case _ n hi =>
      split at h
      case isTrue hn =>
        obtain ⟨hk, hs, a, v, ha, hv, ho⟩ := found_mem_elementSightings.mp h
        exact ⟨hk, hs, e, a, v, he, hn ▸ hi, ha, hv, ho⟩
      case isFalse => simp at h
    case _ => simp at h
  case mpr =>
    rintro ⟨hk, hs, e, a, v, he, hi, ha, hv, ho⟩
    refine ⟨e, he, ?_⟩
    simp only [hi, ↓reduceIte]
    exact found_mem_elementSightings.mpr ⟨hk, hs, a, v, ha, hv, ho⟩

theorem referencesModule_iff :
    (ofTree settings src root).referencesModule name ↔
      ∃ b, (Scope.ofTree src root).binding? name = some b ∧ b.kind = .import' ∧
        b.source = settings.moduleName := by
  simp [referencesModule, Option.any_eq_true]

theorem found_mem_hookSightings :
    .found f ∈ (ofTree settings src root).hookSightings src root ↔
      f.kind = .hookQuery ∧ (ofTree settings src root).Sound src f.template ∧
        IsHookQuery settings src root f.template := by
  simp only [hookSightings, List.mem_flatMap, Tree.mem_walk]
  constructor
  case mp =>
    rintro ⟨c, hc, h⟩
    split at h
    case _ callee hi =>
      split at h
      case isTrue hh =>
        obtain ⟨hk, hn, hr⟩ := hh
        obtain ⟨b, hb, hi', hs'⟩ := referencesModule_iff.mp hr
        obtain ⟨hk', hs, ho⟩ := (found_mem_resolve rfl).mp h
        exact ⟨hk', hs, c, callee, b, hc, hi, hk, hn, hb, hi', hs', ho⟩
      case isFalse => simp at h
    case _ => simp at h
  case mpr =>
    rintro ⟨hk', hs, c, callee, b, hc, hi, hk, hn, hb, hi', hs', ho⟩
    have hr := referencesModule_iff.mpr ⟨b, hb, hi', hs'⟩
    refine ⟨c, hc, ?_⟩
    simp only [hi, hk, hn, hr, and_self, ↓reduceIte]
    exact (found_mem_resolve rfl).mpr ⟨hk', hs, ho⟩

theorem found_mem_pageSightings :
    .found f ∈ (ofTree settings src root).pageSightings src root ↔
      f.kind = .pageQuery ∧ (ofTree settings src root).Sound src f.template ∧
        IsPageQuery src root f.template := by
  obtain ⟨k, T⟩ := f
  simp only [pageSightings, List.mem_flatMap, Tree.mem_walk]
  constructor
  case mp =>
    rintro ⟨e, he, h⟩
    split at h
    case _ hi =>
      simp only [List.mem_filterMap, Tree.mem_walk, Option.ite_none_right_eq_some,
        Option.some.injEq, Sighting.found.injEq, Find.mk.injEq] at h
      obtain ⟨T', ⟨t, ht, hT⟩, hq, hk, h⟩ := h
      subst h
      obtain ⟨hn, _⟩ := TaggedTemplate.ofTree?_eq_some_iff.mp hT
      subst hn
      exact ⟨hk.symm, ⟨hT, hq⟩, e, he, hi, ht⟩
    case _ => simp at h
  case mpr =>
    rintro ⟨hk, ⟨hT, hq⟩, e, he, hi, ht⟩
    refine ⟨e, he, ?_⟩
    simp only [hi, List.mem_filterMap, Tree.mem_walk]
    exact ⟨T, ⟨T.node, ht, hT⟩, by simp_all⟩

-- The core lemma for all that is said about finds.
theorem found_mem_locate {k : FragmentKind} {T : TaggedTemplate} :
    .found ⟨k, T⟩ ∈ (ofTree settings src root).locate src root ↔
      (ofTree settings src root).Sound src T ∧ HasShape settings src root k T := by
  simp only [locate, List.mem_append, found_mem_componentSightings, found_mem_hookSightings,
    found_mem_pageSightings]
  cases k <;> simp [HasShape]

def finds (m : Matcher) (src : Source) (root : Tree) : List Find :=
  (m.locate src root).filterMap Sighting.find?

theorem mem_filterMap_find? {ss : List Sighting} : f ∈ ss.filterMap Sighting.find? ↔ .found f ∈ ss := by
  simp only [List.mem_filterMap]
  constructor
  case mp =>
    intro ⟨s, hs, h⟩
    cases s <;> simp [Sighting.find?] at h
    case found => exact h ▸ hs
  case mpr => exact fun h => ⟨_, h, rfl⟩

theorem mem_finds {k : FragmentKind} {T : TaggedTemplate} :
    ⟨k, T⟩ ∈ (ofTree settings src root).finds src root ↔
      (ofTree settings src root).Sound src T ∧ HasShape settings src root k T :=
  mem_filterMap_find?.trans found_mem_locate

theorem finds_eq_append (settings : Settings) (src : Source) (root : Tree) :
    ∃ cs hs ps, (ofTree settings src root).finds src root = cs ++ hs ++ ps ∧
      (∀ f ∈ cs, f.kind = .componentQuery) ∧ (∀ f ∈ hs, f.kind = .hookQuery) ∧
      (∀ f ∈ ps, f.kind = .pageQuery) := by
  refine ⟨_, _, _, by rw [finds, locate, List.filterMap_append, List.filterMap_append], ?_, ?_, ?_⟩
  all_goals intro f h; replace h := mem_filterMap_find?.mp h
  · exact found_mem_componentSightings.mp h |>.left
  · exact found_mem_hookSightings.mp h |>.left
  · exact found_mem_pageSightings.mp h |>.left

-- The finds are in the order of the passes.
theorem pairwise_pass_finds :
    ((ofTree settings src root).finds src root).Pairwise (·.kind.pass ≤ ·.kind.pass) := by
  have ⟨cs, hs, ps, h, hcs, hhs, hps⟩ := finds_eq_append settings src root
  have constant {fs : List Find} {k} (hk : ∀ f ∈ fs, f.kind = k) :
      fs.Pairwise (·.kind.pass ≤ ·.kind.pass) :=
    List.pairwise_of_forall_mem_list fun f hf g hg => by simp [hk f hf, hk g hg]
  rw [h, List.pairwise_append, List.pairwise_append]
  refine ⟨⟨constant hcs, constant hhs, ?_⟩, constant hps, ?_⟩
  · intro f hf g hg
    simp [hcs f hf, hhs g hg, FragmentKind.pass]
  · intro f hf g hg
    rw [hps g hg]
    cases List.mem_append.mp hf
    case inl hf => simp [hcs f hf, FragmentKind.pass]
    case inr hf => simp [hhs f hf, FragmentKind.pass]

theorem finds_exact (settings : Settings) (src : Source) (root : Tree) :
    (∀ k T, .found ⟨k, T⟩ ∈ (ofTree settings src root).locate src root ↔
      TaggedTemplate.ofTree? src T.node = some T ∧ (ofTree settings src root).isQueryTag src T ∧
        HasShape settings src root k T) ∧
    (((ofTree settings src root).locate src root).filterMap Sighting.find?).Pairwise
      (·.kind.pass ≤ ·.kind.pass) := by
  refine ⟨fun k T => ?_, pairwise_pass_finds⟩
  rw [found_mem_locate]
  exact ⟨fun ⟨⟨hT, hq⟩, h⟩ => ⟨hT, hq, h⟩, fun ⟨hT, hq, h⟩ => ⟨⟨hT, hq⟩, h⟩⟩

end Matcher

end QueryGlean
