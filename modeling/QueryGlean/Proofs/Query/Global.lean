import QueryGlean.Proofs.Query.Shapes

namespace QueryGlean

namespace Scope

variable (src : Source) (name : String)

-- A part of an import clause introduces a name:
-- 1. as that of the default export
-- 2. as that of the whole module
-- 3. as that of an export, which goes by its own name unless it is given another
inductive IsImported : Tree → Prop
  | defaultExport {part : Tree} :
    part.kind = .identifier → part.text src = name → IsImported part
  | wholeModule {part l : Tree} :
    part.kind = .namespaceImport → part.namedChildren.find? (·.kind = .identifier) = some l →
    l.text src = name → IsImported part
  | ownName {part spec n : Tree} :
    part.kind = .namedImports → spec ∈ part.namedChildren → spec.kind = .importSpecifier →
    spec.child? .name = some n → spec.child? .alias' = none → nameText src n = name → IsImported part
  | renamed {part spec n l : Tree} :
    part.kind = .namedImports → spec ∈ part.namedChildren → spec.kind = .importSpecifier →
    spec.child? .name = some n → spec.child? .alias' = some l → l.text src = name → IsImported part

structure IsRequire (call callee args first : Tree) : Prop where
  kind      : call.kind = .call
  callee    : call.child? .callee = some callee ∧ callee.kind = .identifier ∧ callee.text src = "require"
  arguments : call.child? .arguments = some args ∧ args.kind = .arguments
  first     : args.namedChildren.head? = some first ∧ first.kind = .string

inductive IsUnpacked : Tree → Prop
  | ownName {part : Tree} : part.kind = .shorthandPattern → part.text src = name → IsUnpacked part
  | renamed {part key value : Tree} :
    part.kind = .pairPattern → part.child? .key = some key → part.child? .value = some value →
    value.kind = .identifier → value.text src = name → IsUnpacked part

-- A node introduces a name:
-- 1. an import of anything under the name
-- 2. a pattern with the name for a module that is required
-- 3. a declarator of the plain name, or a function of the name
-- 4. a class of the name
inductive Introduces : Tree → Prop
  | imports {t s clause part : Tree} :
    t.kind = .importStatement → t.child? .source = some s →
    t.namedChildren.find? (·.kind = .importClause) = some clause → part ∈ clause.namedChildren →
    IsImported src name part → Introduces t
  | requires {t target call callee args first part : Tree} :
    t.kind = .declarator → t.child? .name = some target → t.child? .value = some call →
    IsRequire src call callee args first → target.kind = .objectPattern → part ∈ target.namedChildren →
    IsUnpacked src name part → Introduces t
  | declares {t n : Tree} :
    t.kind ∈ [Kind.declarator, .functionDeclaration] → t.child? .name = some n → n.kind = .identifier →
    n.text src = name → Introduces t
  | declaresClass {t n : Tree} :
    t.kind = .classDeclaration → t.child? .name = some n → n.text src = name → Introduces t

variable {src name} {s : Scope} {bs : List Binding} {root t part call target : Tree} {source : String}

theorem isBound_iff : s.isBound name ↔ ∃ b ∈ s.bindings, b.localName = name := by
  simp [isBound, binding?]

theorem isBound_bind {b : Binding} : (s.bind b).isBound name ↔ s.isBound name ∨ b.localName = name := by
  unfold bind
  split
  case isTrue h  => exact ⟨.inl, fun hn => hn.elim id (· ▸ h)⟩
  case isFalse h => simp [isBound_iff, or_and_right, exists_or]

-- The first binding of a name counts, but later ones do not unbind it.
theorem isBound_foldl_bind :
    (bs.foldl bind s).isBound name ↔ s.isBound name ∨ ∃ b ∈ bs, b.localName = name := by
  induction bs generalizing s
  case nil => simp
  case cons b bs hi => simp [hi, isBound_bind, or_assoc]

theorem localName_specifierBinding :
    (∃ b, specifierBinding src source t = some b ∧ b.localName = name) ↔
      t.kind = .importSpecifier ∧ ∃ n, t.child? .name = some n ∧
        ((t.child? .alias').map (·.text src)).getD (nameText src n) = name := by
  unfold specifierBinding
  split
  case isTrue h  => simp_all
  case isFalse h => cases t.child? .name <;> simp_all

theorem localName_clauseBindings :
    (∃ b ∈ clauseBindings src source part, b.localName = name) ↔ IsImported src name part := by
  constructor
  case mp =>
    intro ⟨b, hb, hn⟩
    unfold clauseBindings at hb
    split at hb
    case h_1 hk =>
      cases List.mem_singleton.mp hb
      exact .defaultExport hk hn
    case h_2 hk =>
      split at hb
      case h_1 l hl =>
        cases List.mem_singleton.mp hb
        exact .wholeModule hk hl hn
      case h_2 => cases hb
    case h_3 hk =>
      have ⟨spec, hs, hb⟩ := List.mem_filterMap.mp hb
      have ⟨hk', n, hc, hl⟩ := localName_specifierBinding.mp ⟨b, hb, hn⟩
      cases ha : spec.child? .alias'
      case none   => exact .ownName hk hs hk' hc ha (by simpa [ha] using hl)
      case some l => exact .renamed hk hs hk' hc ha (by simpa [ha] using hl)
    case h_4 => cases hb
  case mpr =>
    -- The two ways to name an export differ in where the local name is read.
    have named {spec n : Tree} (hk : part.kind = .namedImports) (hs : spec ∈ part.namedChildren)
        (hk' : spec.kind = .importSpecifier) (hc : spec.child? .name = some n)
        (hl : ((spec.child? .alias').map (·.text src)).getD (nameText src n) = name) :
        ∃ b ∈ clauseBindings src source part, b.localName = name := by
      have ⟨b, hb, hn⟩ : ∃ b, specifierBinding src source spec = some b ∧ b.localName = name :=
        localName_specifierBinding.mpr ⟨hk', n, hc, hl⟩
      exact ⟨b, by simpa [clauseBindings, hk] using ⟨spec, hs, hb⟩, hn⟩
    intro h
    cases h
    case defaultExport hk hn  => simp [clauseBindings, hk, hn]
    case wholeModule hk hl hn => simp [clauseBindings, hk, hl, hn]
    case ownName hk hs hk' hc ha hn => exact named hk hs hk' hc (by simp [ha, hn])
    case renamed hk hs hk' hc ha hn => exact named hk hs hk' hc (by simp [ha, hn])

theorem localName_patternBinding :
    (∃ b, patternBinding src source part = some b ∧ b.localName = name) ↔ IsUnpacked src name part := by
  constructor
  case mp =>
    intro ⟨b, hb, hn⟩
    unfold patternBinding at hb
    split at hb
    case h_1 hk =>
      cases hb
      exact .ownName hk hn
    case h_2 hk =>
      have ⟨key, hkey, hb⟩ := Option.bind_eq_some_iff.mp hb
      have ⟨value, hv, hb⟩ := Option.bind_eq_some_iff.mp hb
      split at hb
      case isTrue hi =>
        cases hb
        exact .renamed hk hkey hv hi hn
      case isFalse => cases hb
    case h_3 => cases hb
  case mpr =>
    intro h
    cases h
    case ownName hk hn            => simp [patternBinding, hk, hn]
    case renamed hk hkey hv hi hn => simp [patternBinding, hk, hkey, hv, hi, hn]

theorem requiredModule?_eq_some_iff :
    requiredModule? src call = some source ↔
      ∃ callee args first, IsRequire src call callee args first ∧ first.inside src = source := by
  constructor
  case mp =>
    intro h
    unfold requiredModule? at h
    split at h
    case isTrue => cases h
    case isFalse hk =>
      have ⟨callee, hc, h⟩ := Option.bind_eq_some_iff.mp h
      have ⟨args, ha, h⟩ := Option.bind_eq_some_iff.mp h
      have ⟨first, hf, h⟩ := Option.bind_eq_some_iff.mp h
      split at h
      case isTrue hr =>
        obtain ⟨hi, ht, hk', hs⟩ := hr
        exact ⟨callee, args, first, ⟨Decidable.not_not.mp hk, ⟨hc, hi, ht⟩, ⟨ha, hk'⟩, hf, hs⟩,
          Option.some.inj h⟩
      case isFalse => cases h
  case mpr =>
    intro ⟨callee, args, first, ⟨hk, ⟨hc, hi, ht⟩, ⟨ha, hk'⟩, hf, hs⟩, h⟩
    simp [requiredModule?, hk, hc, hi, ht, ha, hk', hf, hs, h]

theorem localName_requireBindings (ht : t.kind = .declarator) :
    (∃ b ∈ requireBindings src t, b.localName = name) → Introduces src name t := by
  intro ⟨b, hb, hn⟩
  unfold requireBindings at hb
  split at hb
  case h_1 target source hc hv =>
    have ⟨call, hv, hr⟩ := Option.bind_eq_some_iff.mp hv
    have ⟨callee, args, first, hr, _⟩ := requiredModule?_eq_some_iff.mp hr
    unfold targetBindings at hb
    split at hb
    case h_1 hk =>
      cases List.mem_singleton.mp hb
      exact .declares (by simp [ht]) hc hk hn
    case h_2 hk =>
      have ⟨part, hp, hb⟩ := List.mem_filterMap.mp hb
      exact .requires ht hc hv hr hk hp (localName_patternBinding.mp ⟨b, hb, hn⟩)
    case h_3 => cases hb
  case h_2 => cases hb

theorem localName_bindingsOf (h : ∃ b ∈ bindingsOf src t, b.localName = name) : Introduces src name t := by
  unfold bindingsOf at h
  split at h
  case h_1 hk =>
    have ⟨b, hb, hn⟩ := h
    unfold importBindings at hb
    split at hb
    case h_1 s clause hs hc =>
      have ⟨part, hp, hb⟩ := List.mem_flatMap.mp hb
      exact .imports hk hs hc hp (localName_clauseBindings.mp ⟨b, hb, hn⟩)
    case h_2 => cases hb
  case h_2 hk => exact localName_requireBindings hk h
  case h_3 =>
    have ⟨_, hb, _⟩ := h
    cases hb

theorem declaredName?_eq_some_iff :
    declaredName? src t = some name ↔
      ∃ n, t.child? .name = some n ∧ n.text src = name ∧
        (t.kind ∈ [Kind.declarator, .functionDeclaration] ∧ n.kind = .identifier ∨
          t.kind = .classDeclaration) := by
  unfold declaredName?
  cases t.child? .name
  case none => simp
  case some n => cases t.kind <;> by_cases hn : n.kind = .identifier <;> simp [hn]

theorem introduces_iff :
    Introduces src name t ↔
      (∃ b ∈ bindingsOf src t, b.localName = name) ∨ declaredName? src t = some name := by
  constructor
  case mp =>
    intro h
    cases h
    -- Each way to introduce a name is found by the function for nodes of its kind.
    case imports s clause part hk hs hc hp hi =>
      have ⟨b, hb, hn⟩ : ∃ b ∈ clauseBindings src (s.inside src) part, b.localName = name :=
        localName_clauseBindings.mpr hi
      refine .inl ⟨b, ?_, hn⟩
      simpa [bindingsOf, hk, importBindings, hs, hc] using ⟨part, hp, hb⟩
    case requires target call callee args first part hk hc hv hr ho hp hu =>
      have hm := requiredModule?_eq_some_iff.mpr ⟨callee, args, first, hr, rfl⟩
      have ⟨b, hb, hn⟩ : ∃ b, patternBinding src (first.inside src) part = some b ∧ b.localName = name :=
        localName_patternBinding.mpr hu
      refine .inl ⟨b, ?_, hn⟩
      simpa [bindingsOf, hk, requireBindings, hc, hv, hm, targetBindings, ho] using ⟨part, hp, hb⟩
    case declares hk hc hi hn => exact .inr <| declaredName?_eq_some_iff.mpr ⟨_, hc, hn, .inl ⟨hk, hi⟩⟩
    case declaresClass hk hc hn => exact .inr <| declaredName?_eq_some_iff.mpr ⟨_, hc, hn, .inr hk⟩
  case mpr =>
    intro h
    cases h
    case inl h => exact localName_bindingsOf h
    case inr h =>
      have ⟨n, hc, hn, h⟩ := declaredName?_eq_some_iff.mp h
      cases h
      case inl h => exact .declares h.left hc h.right hn
      case inr h => exact .declaresClass h hc hn

-- The core lemma: the index knows the names that nodes of the file introduce, and no others.
theorem isBound_or_isDeclared_ofTree :
    (ofTree src root).isBound name ∨ (ofTree src root).isDeclared name ↔
      ∃ t, root.Contains t ∧ Introduces src name t := by
  have hb : (ofTree src root).isBound name ↔
      ∃ t, root.Contains t ∧ ∃ b ∈ bindingsOf src t, b.localName = name := by
    refine isBound_foldl_bind.trans ?_
    rw [or_iff_right (by simp [isBound_iff])]
    simp only [List.mem_flatMap, Tree.mem_recognized]
    constructor
    case mp =>
      rintro ⟨b, ⟨t, ht, hb⟩, hn⟩
      exact ⟨t, ht, b, hb, hn⟩
    case mpr =>
      rintro ⟨t, ht, b, hb, hn⟩
      exact ⟨b, ⟨t, ht, hb⟩, hn⟩
  have hd : (ofTree src root).isDeclared name ↔
      ∃ t, root.Contains t ∧ declaredName? src t = some name := by
    simp [isDeclared, ofTree]
  simp only [hb, hd, introduces_iff, ← exists_or, ← and_or_left]

end Scope

namespace Matcher

variable {settings : Settings} {src : Source} {root : Tree} {T : TaggedTemplate}

theorem isGlobal_iff :
    (ofTree settings src root).isGlobal src T ↔
      T.tag.kind = .identifier ∧ T.tag.text src = settings.tagName ∧
        ∀ t, root.Contains t → ¬Scope.Introduces src settings.tagName t := by
  have hn : (∀ t, root.Contains t → ¬Scope.Introduces src settings.tagName t) ↔
      ¬(Scope.ofTree src root).isBound settings.tagName ∧ ¬(Scope.ofTree src root).isDeclared settings.tagName := by
    rw [← not_or, Scope.isBound_or_isDeclared_ofTree]
    simp
  rw [hn]
  simp only [isGlobal, Bool.and_eq_true, decide_eq_true_eq, Bool.not_eq_true', Bool.not_eq_true]
  constructor
  case mp =>
    intro ⟨⟨⟨hk, ht⟩, hb⟩, hd⟩
    exact ⟨hk, ht, ht ▸ hb, ht ▸ hd⟩
  case mpr =>
    intro ⟨hk, ht, hb, hd⟩
    exact ⟨⟨⟨hk, ht⟩, ht ▸ hb⟩, ht ▸ hd⟩

end Matcher

def Source.unpackedTag : Source :=
  .ofString "const \x7b graphql \x7d = lib\ngraphql\x60\x7ba\x7d\x60"

def Tree.unpacking : Tree :=
  .node .declarator none 6 23 [
    .node .objectPattern (some .name) 6 17 [.leaf .mark 6 7, .leaf .shorthandPattern 8 15, .leaf .mark 16 17],
    .leaf .mark 18 19,
    .node .identifier (some .value) 20 23 []]

def Tree.unpackedTag : Tree :=
  .node .phrase none 0 36 [
    .node .phrase none 0 23 [.leaf .mark 0 5, unpacking],
    .node .phrase none 24 36 [(TaggedTemplate.spanning 24 36).node]]

theorem isGlobal_of_unpackedTag :
    let m := Matcher.ofTree {} .unpackedTag .unpackedTag
    let T := TaggedTemplate.spanning 24 36
    (∃ pattern part, Tree.unpackedTag.Contains .unpacking ∧ Tree.unpacking.kind = .declarator ∧
      Tree.unpacking.child? .name = some pattern ∧ pattern.kind = .objectPattern ∧
      part ∈ pattern.namedChildren ∧ Scope.IsUnpacked .unpackedTag m.settings.tagName part) ∧
    Tree.unpackedTag.Contains T.node ∧ TaggedTemplate.ofTree? .unpackedTag T.node = some T ∧
      m.isGlobal .unpackedTag T ∧ m.isQueryTag .unpackedTag T := by
  refine ⟨⟨_, .leaf .shorthandPattern 8 15, ?_, rfl, rfl, rfl, ?_, ?_⟩, ?_, rfl, ?_, ?_⟩
  · exact .child (.head _) (.of_mem_children (.tail _ (.head _)))
  · simp [Tree.namedChildren, Tree.children, Tree.leaf, Tree.isNamed, Tree.kind, Kind.isNamed]
  · exact .ownName rfl (by decide +kernel)
  · exact .child (.tail _ (.head _)) (.of_mem_children (.head _))
  · decide +kernel
  · decide +kernel

end QueryGlean
