import Mathlib.Data.List.Forall2
import QueryGlean.Proofs.Query.Global

namespace QueryGlean

structure Taking where
  imported : String
  quote    : Option Char   := none
  alias'   : Option String := none

namespace Taking

def localName (τ : Taking) : String :=
  τ.alias'.getD τ.imported

def names (τ : Taking) : String × String :=
  (τ.imported, τ.localName)

def spelling (τ : Taking) : String :=
  match τ.quote with
  | none   => τ.imported
  | some q => String.singleton q ++ τ.imported ++ String.singleton q

-- The word `undefined` is no identifier.
def isBound (τ : Taking) : Bool :=
  τ.alias' ≠ some "undefined"

def isPlain (τ : Taking) : Bool :=
  τ.quote = none && τ.isBound

structure IsSpelled (src : Source) (τ : Taking) (t : Tree) : Prop where
  kind    : t.kind = .string ↔ τ.quote.isSome
  stop_le : t.stop ≤ src.size
  text    : t.text src = τ.spelling

end Taking

def Tree.parts (t : Tree) : List Tree :=
  t.namedChildren.filter (·.kind ≠ .comment)

namespace Scope

structure IsSpecifier (src : Source) (τ : Taking) (spec : Tree) : Prop where
  kind   : spec.kind = .importSpecifier
  name   : ∃ n, spec.child? .name = some n ∧ τ.IsSpelled src n
  alias' : (spec.child? .alias').map (·.text src) = τ.alias'

-- A part of a pattern:
-- 1. a name that is that of the export and the local one
-- 2. a name and the local one behind it, which is an identifier unless it is `undefined`
inductive IsPart (src : Source) (τ : Taking) (part : Tree) : Prop
  | own (kind : part.kind = .shorthandPattern) (text : part.text src = τ.imported)
    (quote : τ.quote = none) (alias' : τ.alias' = none)
  | pair {k v : Tree} (kind : part.kind = .pairPattern) (key : part.child? .key = some k)
    (name : τ.IsSpelled src k) (value : part.child? .value = some v)
    (identifier : v.kind = .identifier ↔ v.text src ≠ "undefined") (alias' : τ.alias' = some (v.text src))

structure IsModuleName (src : Source) (source : String) (t : Tree) : Prop where
  kind   : t.kind = .string
  inside : t.inside src = source

structure IsImport (src : Source) (source : String) (τs : List Taking) (t : Tree) : Prop where
  kind   : t.kind = .importStatement
  source : ∃ s, t.child? .source = some s ∧ IsModuleName src source s
  clause : ∃ clause list, t.namedChildren.find? (·.kind = .importClause) = some clause ∧ clause.parts = [list] ∧
    list.kind = .namedImports ∧ List.Forall₂ (IsSpecifier src) τs list.parts

structure IsUnpacking (src : Source) (source : String) (τs : List Taking) (t : Tree) : Prop where
  kind    : t.kind = .declarator
  source  : ∃ call callee args first, t.child? .value = some call ∧ IsRequire src call callee args first ∧
    IsModuleName src source first
  pattern : ∃ p, t.child? .name = some p ∧ p.kind = .objectPattern ∧ List.Forall₂ (IsPart src) τs p.parts

end Scope

variable {src : Source} {source : String} {t part spec : Tree} {τ : Taking} {τs : List Taking}

namespace Taking

theorem spelling_eq_iff : τ.spelling = τ.imported ↔ τ.quote = none := by
  unfold spelling
  split
  case h_1 hq   => simp [hq]
  case h_2 q hq =>
    refine iff_of_false (fun h => ?_) (by simp [hq])
    have := congrArg String.length h
    simp only [String.length_append, String.length_singleton] at this
    omega

theorem IsSpelled.inside_eq (h : τ.IsSpelled src t) (hq : τ.quote.isSome) : t.inside src = τ.imported := by
  obtain ⟨q, hq⟩ := Option.isSome_iff_exists.mp hq
  have hs : t.stop ≤ src.chars.toList.length := h.stop_le
  have ht : (src.chars.toList.drop t.start).take (t.stop - t.start) = q :: (τ.imported.toList ++ [q]) := by
    simpa [Tree.text, Source.slice, spelling, hq] using congrArg String.toList h.text
  have hl := congrArg List.length ht
  simp only [List.length_take, List.length_drop, List.length_cons, List.length_append, List.length_nil] at hl
  have hn : t.stop - t.start = τ.imported.toList.length + 2 := by omega
  have hi : t.stop - 1 - (t.start + 1) = τ.imported.toList.length := by omega
  -- The name is what is left of the text without its first and last character.
  have hd := congrArg (fun cs => (cs.drop 1).take τ.imported.toList.length) ht
  rw [Tree.inside, Source.slice, Array.toList_extract, List.extract_eq_take_drop, ← String.toList_inj,
    String.toList_ofList, hi, ← List.drop_drop]
  simpa [hn, List.drop_take, List.take_take] using hd

theorem IsSpelled.nameText_eq (h : τ.IsSpelled src t) : Scope.nameText src t = τ.imported := by
  unfold Scope.nameText
  split
  case isTrue hk  => exact h.inside_eq (h.kind.mp hk)
  case isFalse hk =>
    have hq : τ.quote = none := by simpa using mt h.kind.mpr hk
    exact h.text.trans (spelling_eq_iff.mpr hq)

end Taking

namespace Scope

theorem IsSpecifier.binding_eq (h : IsSpecifier src τ spec) :
    specifierBinding src source spec = some ⟨τ.localName, source, τ.imported, .import'⟩ := by
  have ⟨n, hn, hs⟩ := h.name
  simp [specifierBinding, h.kind, hn, h.alias', hs.nameText_eq, Taking.localName]

theorem IsPart.binding_eq (h : IsPart src τ part) :
    patternBinding src source part =
      if τ.isBound then some ⟨τ.localName, source, τ.spelling, .require⟩ else none := by
  cases h
  case own hk ht hq ha =>
    simp [patternBinding, hk, ht, ha, Taking.isBound, Taking.localName, Taking.spelling_eq_iff.mpr hq]
  case pair hk hkey hs hv hi ha =>
    simp [patternBinding, hk, hkey, hv, hs.text, hi, ha, Taking.isBound, Taking.localName]

theorem filterMap_parts {f : Tree → Option Binding} (hf : ∀ t, t.kind = .comment → f t = none) (t : Tree) :
    t.namedChildren.filterMap f = t.parts.filterMap f := by
  rw [Tree.parts, List.filterMap_filter]
  refine List.filterMap_congr fun c _ => ?_
  by_cases hk : c.kind = .comment <;> simp [hk, hf]

theorem flatMap_parts {f : Tree → List Binding} (hf : ∀ t, t.kind = .comment → f t = []) (t : Tree) :
    t.namedChildren.flatMap f = t.parts.flatMap f := by
  unfold Tree.parts
  induction t.namedChildren
  case nil => rfl
  case cons c cs hi => by_cases hk : c.kind = .comment <;> simp [hk, hf, hi]

theorem filterMap_of_forall₂ {α β γ : Type} {r : α → β → Prop} {f : β → Option γ} {g : α → Option γ}
    {as : List α} {bs : List β} (h : List.Forall₂ r as bs) (hf : ∀ a b, r a b → f b = g a) :
    bs.filterMap f = as.filterMap g := by
  induction h
  case nil => rfl
  case cons hr _ hi => rw [List.filterMap_cons, List.filterMap_cons, hf _ _ hr, hi]

theorem IsImport.bindingsOf_eq (h : IsImport src source τs t) :
    bindingsOf src t = τs.map fun τ => ⟨τ.localName, source, τ.imported, .import'⟩ := by
  have ⟨s, hs, hm⟩ := h.source
  have ⟨clause, list, hc, hp, hk, hτ⟩ := h.clause
  have hl : list.namedChildren.filterMap (specifierBinding src source) =
      τs.map fun τ => ⟨τ.localName, source, τ.imported, .import'⟩ := by
    rw [filterMap_parts (fun t ht => by simp [specifierBinding, ht]),
      filterMap_of_forall₂ hτ fun τ spec hs => hs.binding_eq, List.filterMap_eq_map']
  rw [bindingsOf, h.kind]
  simp only [importBindings, hs, hc, hm.inside]
  rw [flatMap_parts (fun t ht => by simp [clauseBindings, ht]), hp, List.flatMap_singleton, clauseBindings, hk]
  exact hl

theorem IsUnpacking.bindingsOf_eq (h : IsUnpacking src source τs t) :
    bindingsOf src t = (τs.filter (·.isBound)).map fun τ => ⟨τ.localName, source, τ.spelling, .require⟩ := by
  have ⟨call, callee, args, first, hc, hr, hm⟩ := h.source
  have ⟨p, hp, hk, hτ⟩ := h.pattern
  have hs : requiredModule? src call = some source :=
    requiredModule?_eq_some_iff.mpr ⟨callee, args, first, hr, hm.inside⟩
  rw [bindingsOf, h.kind]
  simp only [requireBindings, hp, hc, Option.bind_some, hs, targetBindings, hk]
  rw [filterMap_parts (fun t ht => by simp [patternBinding, ht]),
    filterMap_of_forall₂ hτ fun τ part hs => hs.binding_eq, ← List.filterMap_eq_map', List.filterMap_filter]

theorem IsImport.declaredName?_eq_none (h : IsImport src source τs t) : declaredName? src t = none := by
  unfold declaredName?
  cases t.child? .name <;> simp [h.kind]

theorem IsUnpacking.declaredName?_eq_none (h : IsUnpacking src source τs t) : declaredName? src t = none := by
  have ⟨p, hp, hk, _⟩ := h.pattern
  simp [declaredName?, hp, h.kind, hk]

end Scope

def Binding.entry (b : Binding) : String × String × String :=
  (b.localName, b.source, b.imported)

namespace Scope

variable {src₁ src₂ : Source} {root₁ root₂ t₁ t₂ : Tree} {τs₁ τs₂ : List Taking}

-- The core lemma: a part that binds nothing leaves fewer names, and quotes make a name another one.
theorem entries_eq_iff (hi : IsImport src₁ source τs₁ t₁) (hu : IsUnpacking src₂ source τs₂ t₂)
    (hn : τs₁.map Taking.names = τs₂.map Taking.names) :
    (bindingsOf src₁ t₁).map Binding.entry = (bindingsOf src₂ t₂).map Binding.entry ↔
      ∀ τ ∈ τs₂, τ.isPlain := by
  have hm : (τs₁.map fun τ => (τ.localName, source, τ.imported)) =
      τs₂.map fun τ => (τ.localName, source, τ.imported) := by
    simpa [Taking.names, Function.comp_def] using congrArg (List.map fun n => (n.2, source, n.1)) hn
  have hs (τ : Taking) :
      (τ.localName, source, τ.imported) = (τ.localName, source, τ.spelling) ↔ τ.quote = none := by
    simp [← Taking.spelling_eq_iff, eq_comm]
  rw [hi.bindingsOf_eq, hu.bindingsOf_eq, List.map_map, List.map_map]
  simp only [Function.comp_def, Binding.entry]
  rw [hm]
  constructor
  case mp =>
    intro h
    -- The lists are equally long, so the pattern leaves out none of its parts.
    have hb : τs₂.filter (·.isBound) = τs₂ := by
      have hl := congrArg List.length h
      rw [List.length_map, List.length_map] at hl
      exact List.filter_sublist.eq_of_length hl.symm
    rw [hb, List.map_inj_left] at h
    intro τ hτ
    simp [Taking.isPlain, (hs τ).mp (h τ hτ), List.filter_eq_self.mp hb τ hτ]
  case mpr =>
    intro h
    simp only [Taking.isPlain, Bool.and_eq_true, decide_eq_true_eq] at h
    rw [List.filter_eq_self.mpr fun τ hτ => (h τ hτ).right, List.map_inj_left]
    exact fun τ hτ => (hs τ).mpr (h τ hτ).left

structure Alike (s₁ s₂ : Scope) : Prop where
  bindings : s₁.bindings.map Binding.entry = s₂.bindings.map Binding.entry
  declared : s₁.declared = s₂.declared

variable {s₁ s₂ : Scope} {b₁ b₂ : Binding} {bs₁ bs₂ : List Binding}

theorem Alike.binding? (h : Alike s₁ s₂) (name : String) :
    (s₁.binding? name).map Binding.entry = (s₂.binding? name).map Binding.entry := by
  have entry_eq (s : Scope) :
      (s.binding? name).map Binding.entry = (s.bindings.map Binding.entry).find? (·.1 = name) := by
    rw [List.find?_map]
    rfl
  rw [entry_eq, entry_eq, h.bindings]

theorem Alike.isBound (h : Alike s₁ s₂) (name : String) : s₁.isBound name = s₂.isBound name := by
  simpa [Scope.isBound] using congrArg Option.isSome (h.binding? name)

theorem Alike.bind (h : Alike s₁ s₂) (hb : b₁.entry = b₂.entry) : Alike (s₁.bind b₁) (s₂.bind b₂) := by
  have hn : b₁.localName = b₂.localName := congrArg (·.1) hb
  unfold Scope.bind
  rw [hn, h.isBound]
  split
  case isTrue  => exact h
  case isFalse => exact ⟨by simp [h.bindings, hb], h.declared⟩

theorem Alike.foldl_bind (h : Alike s₁ s₂) (hb : bs₁.map Binding.entry = bs₂.map Binding.entry) :
    Alike (bs₁.foldl Scope.bind s₁) (bs₂.foldl Scope.bind s₂) := by
  induction bs₁ generalizing s₁ s₂ bs₂
  case nil =>
    cases List.map_eq_nil_iff.mp hb.symm
    exact h
  case cons b₁ bs₁ hi =>
    obtain ⟨b₂, bs₂, rfl, he, hb⟩ := List.map_eq_cons_iff.mp hb.symm
    rw [List.foldl_cons, List.foldl_cons]
    exact hi (h.bind he.symm) hb.symm

def namesOf (src : Source) (ts : List Tree) : List (String × String × String) × List String :=
  ((ts.flatMap (bindingsOf src)).map Binding.entry, ts.filterMap (declaredName? src))

def DifferIn (src₁ src₂ : Source) (root₁ root₂ t₁ t₂ : Tree) : Prop :=
  ∃ before₁ before₂ behind₁ behind₂,
    root₁.recognized = before₁ ++ t₁ :: behind₁ ∧ root₂.recognized = before₂ ++ t₂ :: behind₂ ∧
    namesOf src₁ before₁ = namesOf src₂ before₂ ∧ namesOf src₁ behind₁ = namesOf src₂ behind₂

theorem namesOf_append (src : Source) (ts us : List Tree) :
    namesOf src (ts ++ us) =
      ((namesOf src ts).1 ++ (namesOf src us).1, (namesOf src ts).2 ++ (namesOf src us).2) := by
  simp [namesOf]

theorem alike_of_namesOf (h : namesOf src₁ root₁.recognized = namesOf src₂ root₂.recognized) :
    Alike (ofTree src₁ root₁) (ofTree src₂ root₂) := by
  have ⟨hb, hd⟩ := Prod.mk.inj h
  exact ⟨(Alike.foldl_bind ⟨rfl, rfl⟩ hb).bindings, hd⟩

theorem DifferIn.alike (h : DifferIn src₁ src₂ root₁ root₂ t₁ t₂) (ht : namesOf src₁ [t₁] = namesOf src₂ [t₂]) :
    Alike (ofTree src₁ root₁) (ofTree src₂ root₂) := by
  obtain ⟨before₁, before₂, behind₁, behind₂, hw₁, hw₂, hx, hy⟩ := h
  refine alike_of_namesOf ?_
  rw [hw₁, hw₂, List.append_cons before₁, List.append_cons before₂]
  simp only [namesOf_append, hx, ht, hy]

end Scope

structure TagReading where
  kind     : Kind
  text     : String
  object   : Option (Kind × String)
  property : Option String
deriving DecidableEq

def TaggedTemplate.tagReading (src : Source) (T : TaggedTemplate) : TagReading where
  kind     := T.tag.kind
  text     := T.tag.text src
  object   := (T.tag.child? .object).map fun o => (o.kind, o.text src)
  property := (T.tag.child? .property).map (·.text src)

namespace Matcher

variable {settings : Settings} {s₁ s₂ : Scope} {src₁ src₂ : Source} {root₁ root₂ t₁ t₂ : Tree}
variable {τs₁ τs₂ : List Taking} {T₁ T₂ : TaggedTemplate}

theorem bindsTo_eq_of_alike (settings : Settings) (h : s₁.Alike s₂) (name imported : String) :
    Matcher.bindsTo ⟨settings, s₁⟩ name imported = Matcher.bindsTo ⟨settings, s₂⟩ name imported := by
  have bindsTo_eq (s : Scope) : Matcher.bindsTo ⟨settings, s⟩ name imported =
      ((s.binding? name).map Binding.entry).any fun e => e.2.1 = settings.moduleName && e.2.2 = imported := by
    cases hb : s.binding? name <;> simp [bindsTo, hb, Binding.entry]
  rw [bindsTo_eq, bindsTo_eq, h.binding?]

theorem isQueryTag_eq_of_alike (h : s₁.Alike s₂) (ht : T₁.tagReading src₁ = T₂.tagReading src₂) :
    Matcher.isQueryTag ⟨settings, s₁⟩ src₁ T₁ = Matcher.isQueryTag ⟨settings, s₂⟩ src₂ T₂ := by
  obtain ⟨hk, ht, ho, hp⟩ := TagReading.mk.inj ht
  have hb := bindsTo_eq_of_alike settings h
  unfold isQueryTag
  rw [hk]
  split
  case h_1 => simp [isGlobal, hk, ht, h.isBound, Scope.isDeclared, h.declared, hb]
  case h_2 =>
    cases ho₁ : T₁.tag.child? .object <;> cases ho₂ : T₂.tag.child? .object <;>
      cases hp₁ : T₁.tag.child? .property <;> cases hp₂ : T₂.tag.child? .property <;> simp_all
  case h_3 => rfl

theorem forms_exact (hi : Scope.IsImport src₁ source τs₁ t₁) (hu : Scope.IsUnpacking src₂ source τs₂ t₂)
    (hn : τs₁.map Taking.names = τs₂.map Taking.names) :
    Scope.bindingsOf src₁ t₁ = τs₁.map (fun τ => ⟨τ.localName, source, τ.imported, .import'⟩) ∧
    Scope.bindingsOf src₂ t₂ =
      (τs₂.filter (·.isBound)).map (fun τ => ⟨τ.localName, source, τ.spelling, .require⟩) ∧
    ((Scope.bindingsOf src₁ t₁).map Binding.entry = (Scope.bindingsOf src₂ t₂).map Binding.entry ↔
      ∀ τ ∈ τs₂, τ.isPlain) ∧
    ((∀ τ ∈ τs₂, τ.isPlain) → ∀ root₁ root₂, Scope.DifferIn src₁ src₂ root₁ root₂ t₁ t₂ →
      ∀ settings T₁ T₂, T₁.tagReading src₁ = T₂.tagReading src₂ →
        (ofTree settings src₁ root₁).isQueryTag src₁ T₁ = (ofTree settings src₂ root₂).isQueryTag src₂ T₂) := by
  have he := Scope.entries_eq_iff hi hu hn
  refine ⟨hi.bindingsOf_eq, hu.bindingsOf_eq, he, ?_⟩
  intro hp root₁ root₂ hd settings T₁ T₂ ht
  have hs : Scope.namesOf src₁ [t₁] = Scope.namesOf src₂ [t₂] := by
    simpa [Scope.namesOf, hi.declaredName?_eq_none, hu.declaredName?_eq_none] using he.mpr hp
  exact isQueryTag_eq_of_alike (hd.alike hs) ht

end Matcher

def Taking.renamed (quote : Option Char) : Taking where
  imported := "graphql"
  quote    := quote
  alias'   := some "queries"

namespace Source

def importing : Source :=
  .ofString "import \x7b \"graphql\" as queries \x7d from \"gatsby\"\nqueries\x60\x7ba\x7d\x60"

def requiring : Source :=
  .ofString "const \x7b graphql: queries \x7d = require(\"gatsby\")\nqueries\x60\x7ba\x7d\x60"

def requiringQuoted : Source :=
  .ofString "const \x7b \"graphql\": queries \x7d = require(\"gatsby\")\nqueries\x60\x7ba\x7d\x60"

end Source

namespace Tree

def quoted (role : Option Role) (start stop : Nat) : Tree :=
  .node .string role start stop
    [.leaf .mark start (start + 1), .leaf .word (start + 1) (stop - 1), .leaf .mark (stop - 1) stop]

def importing : Tree :=
  .node .importStatement none 0 45 [
    .leaf .mark 0 6,
    .node .importClause none 7 31 [
      .node .namedImports none 7 31 [
        .leaf .mark 7 8,
        .node .importSpecifier none 9 29 [
          quoted (some .name) 9 18, .leaf .mark 19 21, .node .identifier (some .alias') 22 29 []],
        .leaf .mark 30 31]],
    .leaf .mark 32 36,
    quoted (some .source) 37 45]

def requiring (key : Tree) : Tree :=
  let n := key.stop
  .node .declarator none 6 (n + 31) [
    .node .objectPattern (some .name) 6 (n + 11) [
      .leaf .mark 6 7,
      .node .pairPattern none 8 (n + 9) [
        key, .leaf .mark n (n + 1), .node .identifier (some .value) (n + 2) (n + 9) []],
      .leaf .mark (n + 10) (n + 11)],
    .leaf .mark (n + 12) (n + 13),
    .node .call (some .value) (n + 14) (n + 31) [
      .node .identifier (some .callee) (n + 14) (n + 21) [],
      .node .arguments (some .arguments) (n + 21) (n + 31) [
        .leaf .mark (n + 21) (n + 22), quoted none (n + 22) (n + 30), .leaf .mark (n + 30) (n + 31)]]]

def plainKey : Tree :=
  .node .word (some .key) 8 15 []

def quotedKey : Tree :=
  quoted (some .key) 8 17

def withTag (t : Tree) : Tree :=
  let n := t.stop
  .node .phrase none 0 (n + 13)
    [t, .node .phrase none (n + 1) (n + 13) [(TaggedTemplate.spanning (n + 1) (n + 13)).node]]

def ofImport : Tree :=
  importing.withTag

def ofRequire (key : Tree) : Tree :=
  (Tree.node .phrase none 0 (key.stop + 31) [.leaf .mark 0 5, requiring key]).withTag

end Tree

namespace Scope

theorem isImport_importing : IsImport .importing "gatsby" [.renamed (some '"')] .importing where
  kind   := rfl
  source := ⟨_, rfl, rfl, by decide +kernel⟩
  clause :=
    have name : (Taking.renamed (some '"')).IsSpelled .importing (Tree.quoted (some .name) 9 18) :=
      ⟨by decide, by decide +kernel, by decide +kernel⟩
    ⟨_, _, rfl, rfl, rfl, .cons ⟨rfl, ⟨_, rfl, name⟩, by decide +kernel⟩ .nil⟩

theorem isUnpacking_requiring : IsUnpacking .requiring "gatsby" [.renamed none] (.requiring .plainKey) where
  kind    := rfl
  source  :=
    ⟨_, _, _, _, rfl, ⟨rfl, ⟨rfl, rfl, by decide +kernel⟩, ⟨rfl, rfl⟩, rfl, rfl⟩, rfl, by decide +kernel⟩
  pattern :=
    have name : (Taking.renamed none).IsSpelled .requiring .plainKey :=
      ⟨by decide, by decide +kernel, by decide +kernel⟩
    ⟨_, rfl, rfl, .cons (.pair rfl rfl name rfl (by decide +kernel) (by decide +kernel)) .nil⟩

theorem isUnpacking_requiringQuoted :
    IsUnpacking .requiringQuoted "gatsby" [.renamed (some '"')] (.requiring .quotedKey) where
  kind    := rfl
  source  :=
    ⟨_, _, _, _, rfl, ⟨rfl, ⟨rfl, rfl, by decide +kernel⟩, ⟨rfl, rfl⟩, rfl, rfl⟩, rfl, by decide +kernel⟩
  pattern :=
    have name : (Taking.renamed (some '"')).IsSpelled .requiringQuoted .quotedKey :=
      ⟨by decide, by decide +kernel, by decide +kernel⟩
    ⟨_, rfl, rfl, .cons (.pair rfl rfl name rfl (by decide +kernel) (by decide +kernel)) .nil⟩

theorem differIn_importing {src : Source} {key : Tree} (n : Nat)
    (hw : (Tree.ofRequire key).recognized =
      (Tree.ofRequire key).recognized.take n ++ Tree.requiring key :: (Tree.ofRequire key).recognized.drop (n + 1))
    (hx : namesOf src ((Tree.ofRequire key).recognized.take n) = ([], []))
    (hy : namesOf src ((Tree.ofRequire key).recognized.drop (n + 1)) = ([], [])) :
    DifferIn .importing src .ofImport (.ofRequire key) .importing (.requiring key) := by
  refine ⟨Tree.ofImport.recognized.take 1, _, Tree.ofImport.recognized.drop 2, _, rfl, hw, ?_, ?_⟩
  · rw [hx]; decide +kernel
  · rw [hy]; decide +kernel

end Scope

namespace Matcher

theorem forms_alike_of_renamed :
    let m₁ := Matcher.ofTree {} .importing .ofImport
    let m₂ := Matcher.ofTree {} .requiring (.ofRequire .plainKey)
    Scope.IsImport .importing "gatsby" [.renamed (some '"')] .importing ∧
    Scope.IsUnpacking .requiring "gatsby" [.renamed none] (.requiring .plainKey) ∧
    (Scope.bindingsOf .importing .importing).map Binding.entry =
      (Scope.bindingsOf .requiring (.requiring .plainKey)).map Binding.entry ∧
    m₁.isQueryTag .importing (.spanning 46 58) ∧ m₂.isQueryTag .requiring (.spanning 47 59) := by
  intro m₁ m₂
  have hd : Scope.DifferIn .importing .requiring .ofImport (.ofRequire .plainKey) .importing (.requiring .plainKey) :=
    Scope.differIn_importing 11 rfl (by decide +kernel) (by decide +kernel)
  have hp : ∀ τ ∈ [Taking.renamed none], τ.isPlain := by decide
  have ⟨_, _, he, ht⟩ := forms_exact Scope.isImport_importing Scope.isUnpacking_requiring rfl
  have ht := ht hp _ _ hd {} (.spanning 46 58) (.spanning 47 59) (by decide +kernel)
  have h₁ : m₁.isQueryTag .importing (.spanning 46 58) := by decide +kernel
  exact ⟨Scope.isImport_importing, Scope.isUnpacking_requiring, he.mpr hp, h₁, ht ▸ h₁⟩

-- Quotes are taken off a name in an import and not in a pattern.
theorem forms_differ_of_quoted :
    let m₁ := Matcher.ofTree {} .importing .ofImport
    let m₂ := Matcher.ofTree {} .requiringQuoted (.ofRequire .quotedKey)
    let T₁ := TaggedTemplate.spanning 46 58
    let T₂ := TaggedTemplate.spanning 49 61
    Scope.IsImport .importing "gatsby" [.renamed (some '"')] .importing ∧
    Scope.IsUnpacking .requiringQuoted "gatsby" [.renamed (some '"')] (.requiring .quotedKey) ∧
    Scope.DifferIn .importing .requiringQuoted .ofImport (.ofRequire .quotedKey) .importing (.requiring .quotedKey) ∧
    T₁.tagReading .importing = T₂.tagReading .requiringQuoted ∧
    (Scope.bindingsOf .importing .importing).map Binding.entry = [("queries", "gatsby", "graphql")] ∧
    (Scope.bindingsOf .requiringQuoted (.requiring .quotedKey)).map Binding.entry =
      [("queries", "gatsby", "\"graphql\"")] ∧
    m₁.isQueryTag .importing T₁ ∧ ¬m₂.isQueryTag .requiringQuoted T₂ := by
  refine ⟨Scope.isImport_importing, Scope.isUnpacking_requiringQuoted, ?_, ?_, ?_, ?_, ?_, ?_⟩
  · exact Scope.differIn_importing 14 rfl (by decide +kernel) (by decide +kernel)
  · decide +kernel
  · decide +kernel
  · decide +kernel
  · decide +kernel
  · decide +kernel

end Matcher

end QueryGlean
