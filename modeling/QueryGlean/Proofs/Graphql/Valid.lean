import QueryGlean.Proofs.Graphql.Name
import QueryGlean.Proofs.Graphql.Offsets

namespace QueryGlean.Graphql

theorem Lexeme.Spelled.isNumber {l : Lexeme} (h : l.Spelled) (b : Bool) (hk : l.kind = if b then .float else .int) :
    Lexer.IsNumber l.spelling.toList b := by
  have ⟨c, xs, hl, hs⟩ := h
  rw [hl]
  generalize l.kind = k at hk hs
  cases hs
  case number b' hn =>
    have hb : b' = b := by cases b <;> cases b' <;> simp_all
    exact hb ▸ hn
  case mark hm =>
    subst hk
    cases b <;> cases TokenKind.mark?_of_ofChar? hm
  all_goals cases b <;> cases hk

inductive Value.Valid (constant : Bool) : Nat → Value → Prop
  | variable {n room} (hc : constant = false) (hn : isName n) : Valid constant room (.variable n)
  | int {s room} (hs : Lexer.IsNumber s.toList false) : Valid constant room (.int s)
  | float {s room} (hs : Lexer.IsNumber s.toList true) : Valid constant room (.float s)
  | string {t b room} : Valid constant room (.string t b)
  | boolean {b room} : Valid constant room (.boolean b)
  | null {room} : Valid constant room .null
  | enum {n room} (hn : isName n) : Valid constant room (.enum n)
  | list {vs room} (h : ∀ v ∈ vs, Valid constant room v) : Valid constant (room + 1) (.list vs)
  | object {fs room} (hn : ∀ f ∈ fs, isName f.1) (h : ∀ f ∈ fs, Valid constant room f.2) :
    Valid constant (room + 1) (.object fs)

structure Argument.Valid (constant : Bool) (room : Nat) (a : Argument) : Prop where
  name  : isName a.name
  value : a.value.Valid constant room

structure Directive.Valid (constant : Bool) (room : Nat) (d : Directive) : Prop where
  name      : isName d.name
  arguments : ∀ a ∈ d.arguments, a.Valid constant room

inductive TypeReference.Valid : Nat → TypeReference → Prop
  | named {n room} (hn : isName n) : Valid room (.named n)
  | list {t room} (h : Valid room t) : Valid (room + 1) (.list t)
  | nonNull {t room} (h : Valid room t) (hn : ∀ t', t ≠ .nonNull t') : Valid room (.nonNull t)

structure VariableDefinition.Valid (room : Nat) (v : VariableDefinition) : Prop where
  name       : isName v.name
  type       : v.type.Valid room
  default    : ∀ x, v.default = some x → x.Valid true room
  directives : ∀ d ∈ v.directives, d.Valid true room

inductive Selection.Valid : Nat → Selection → Prop
  | leaf {label n as ds room} (hl : ∀ l, label = some l → isName l) (hn : isName n)
    (ha : ∀ a ∈ as, a.Valid false room) (hd : ∀ d ∈ ds, d.Valid false room) :
    Valid room (.field label n as ds none)
  | branch {label n as ds ss room} (hl : ∀ l, label = some l → isName l) (hn : isName n)
    (ha : ∀ a ∈ as, a.Valid false (room + 1)) (hd : ∀ d ∈ ds, d.Valid false (room + 1))
    (h : ∀ s ∈ ss, Valid room s) : Valid (room + 1) (.field label n as ds (some ss))
  | spread {n ds room} (hn : isName n) (ho : n ≠ "on") (hd : ∀ d ∈ ds, d.Valid false room) :
    Valid room (.spread n ds)
  | inline {condition ds ss room} (hn : ∀ c, condition = some c → isName c)
    (hd : ∀ d ∈ ds, d.Valid false (room + 1)) (h : ∀ s ∈ ss, Valid room s) :
    Valid (room + 1) (.inline condition ds ss)

def Definition.Valid : Definition → Prop
  | .operation _ _ _ vs ds ss =>
    (∀ v ∈ vs, v.Valid Grammar.maxDepth) ∧ (∀ d ∈ ds, d.Valid false Grammar.maxDepth) ∧
      ∀ s ∈ ss, Selection.Valid (Grammar.maxDepth - 1) s
  | _ => True

namespace Grammar

open Reader (ok_of_bind Passes)

variable {α β : Type} {n fuel room : Nat} {r r₁ r₂ item : Reader α} {f : α → Reader β} {P : α → Prop} {Q : β → Prop}

structure Cursor.Fine (room : Nat) (c : Cursor) : Prop where
  spelled : ∀ l ∈ c.rest, l.Spelled
  depth   : c.depth + room = maxDepth

def Reader.Gives (room : Nat) (P : α → Prop) (r : Reader α) : Prop :=
  ∀ ⦃c a c'⦄, c.Fine room → r c = .ok (a, c') → P a ∧ c'.Fine room

namespace Reader.Gives

theorem of_passes (h : r.Passes n) (hp : ∀ ⦃c a c'⦄, c.Fine room → r c = .ok (a, c') → P a) : r.Gives room P :=
  fun _ _ _ hc hr =>
    ⟨hp hc hr, fun l hl => hc.spelled l ((h hr).rest.subset hl), (h hr).depth ▸ hc.depth⟩

theorem any (h : r.Passes n) : r.Gives room fun _ => True :=
  of_passes h fun _ _ _ _ _ => trivial

theorem mono (h : r.Gives room P) {P' : α → Prop} (hp : ∀ a, P a → P' a) : r.Gives room P' :=
  fun _ _ _ hc hr => ⟨hp _ (h hc hr).left, (h hc hr).right⟩

theorem pure {a : α} (h : P a) : (Pure.pure a : Reader α).Gives room P := by
  intro c b c' hc hr
  cases hr
  exact ⟨h, hc⟩

theorem bind (hr : r.Gives room P) (hf : ∀ a, P a → (f a).Gives room Q) : (r >>= f).Gives room Q := by
  intro c b c' hc h
  have ⟨a, c₁, h₁, h₂⟩ := ok_of_bind h
  have ⟨ha, hc₁⟩ := hr hc h₁
  exact hf a ha hc₁ h₂

theorem pure_bind {a : α} (h : (f a).Gives room Q) : (Pure.pure a >>= f).Gives room Q :=
  h

theorem after (hr : r.Passes n) (hf : ∀ a, (f a).Gives room Q) : (r >>= f).Gives room Q :=
  (any hr).bind fun a _ => hf a

theorem ite {p : Prop} [Decidable p] (h₁ : p → r₁.Gives room P) (h₂ : ¬p → r₂.Gives room P) :
    (if p then r₁ else r₂).Gives room P := by
  split
  case isTrue h  => exact h₁ h
  case isFalse h => exact h₂ h

theorem failAt {left : Nat} {fault : Fault} : (Grammar.failAt left fault : Reader α).Gives room P := by
  intro c a c' _ h
  cases h

theorem unexpected : (Grammar.unexpected : Reader α).Gives room P := by
  intro c a c' _ h
  cases h

theorem unexpected_bind : ((Grammar.unexpected : Reader α) >>= f).Gives room Q := by
  intro c b c' _ h
  have ⟨_, _, h, _⟩ := ok_of_bind h
  cases h

theorem nested (h : ∀ n, room = n + 1 → r.Gives n P) : (Grammar.nested r).Gives room P := by
  intro c a c' hc hr
  unfold Grammar.nested at hr
  split at hr
  case isTrue => cases hr
  case isFalse hd =>
    have hd : c.depth < maxDepth := Nat.lt_of_not_le hd
    split at hr
    case _ h' =>
      cases hr
      have ⟨n, hn⟩ : ∃ n, room = n + 1 := Nat.exists_eq_add_one_of_ne_zero (by have := hc.depth; omega)
      subst hn
      have hf : Cursor.Fine n { c with depth := c.depth + 1 } := ⟨hc.spelled, by rw [← hc.depth]; simp; omega⟩
      have ⟨ha, hc'⟩ := h n rfl hf h'
      exact ⟨ha, hc'.spelled, hc.depth⟩
    case _ => cases hr

end Reader.Gives

theorem gives_lexemes : lexemes.Gives room fun ls => ∀ l ∈ ls, l.Spelled :=
  .of_passes passes_lexemes fun _ _ _ hc hr => by
    cases hr
    exact hc.spelled

theorem gives_expect {k : TokenKind} : (expect k).Gives room fun l => l.kind = k ∧ l.Spelled := by
  refine gives_lexemes.bind fun ls hl => ?_
  split
  case _ l rest => exact .ite (fun hk => .after passes_advance fun _ => .pure ⟨hk, hl l List.mem_cons_self⟩) fun _ => .failAt
  case _ => exact .failAt

theorem gives_name : name.Gives room fun n => isName n :=
  gives_expect.bind fun _ hl => .pure (hl.right.isName hl.left)

theorem gives_itemsUntil {closing : TokenKind} (h : item.Gives room P) :
    (itemsUntil closing item fuel).Gives room fun as => ∀ a ∈ as, P a := by
  induction fuel
  case zero => exact .unexpected
  case succ fuel hi =>
    refine .after passes_optional fun _ => .ite (fun _ => .pure (by simp)) fun _ => ?_
    exact h.bind fun a ha => hi.bind fun as has => .pure (List.forall_mem_cons.mpr ⟨ha, has⟩)

theorem gives_any {opening closing : TokenKind} (h : item.Gives room P) :
    (Grammar.any fuel opening closing item).Gives room fun as => ∀ a ∈ as, P a :=
  .after passes_expect fun _ => gives_itemsUntil h

theorem gives_optionalMany {opening closing : TokenKind} (h : item.Gives room P) :
    (optionalMany fuel opening closing item).Gives room fun as => ∀ a ∈ as, P a := by
  refine .after passes_peekIs fun _ => .ite (fun _ => ?_) fun _ => .pure (by simp)
  exact .after passes_expect fun _ => h.bind fun a ha => (gives_itemsUntil h).bind fun as has =>
    .pure (List.forall_mem_cons.mpr ⟨ha, has⟩)

theorem gives_variable' : variable'.Gives room fun n => isName n :=
  .after passes_expect fun _ => gives_name

theorem gives_value {constant : Bool} : (value constant fuel).Gives room (Value.Valid constant room) := by
  induction fuel generalizing room
  case zero => exact .unexpected
  case succ fuel hi =>
    refine gives_lexemes.bind fun here hl => ?_
    split
    case _ => exact .unexpected
    case _ l _ =>
      have hs := hl l List.mem_cons_self
      split
      case _ =>
        refine (Reader.Gives.nested fun n hn => (gives_any hi).mono fun vs h => ?_).bind
          fun vs (h : (Value.list vs).Valid constant room) => .pure h
        exact hn ▸ .list h
      case _ =>
        -- A field of an object, in front of which there is room for one level less.
        have hf (n : Nat) : Reader.Gives n (fun f : String × Value => isName f.1 ∧ f.2.Valid constant n) do
            let key ← name
            let _ ← expect .colon
            return (key, ← value constant fuel) :=
          gives_name.bind fun k hk => .after passes_expect fun _ => hi.bind fun v hv => .pure ⟨hk, hv⟩
        refine (Reader.Gives.nested fun n hn => (gives_any (hf n)).mono fun fs h => ?_).bind
          fun fs (h : (Value.object fs).Valid constant room) => .pure h
        exact hn ▸ .object (fun f hf => (h f hf).left) fun f hf => (h f hf).right
      case _ hk => exact .after passes_advance fun _ => .pure (.int (hs.isNumber false hk))
      case _ hk => exact .after passes_advance fun _ => .pure (.float (hs.isNumber true hk))
      case _ => exact .after passes_advance fun _ => .pure .string
      case _ => exact .after passes_advance fun _ => .pure .string
      case _ hk =>
        refine .after passes_advance fun _ => .pure ?_
        split
        case _ => exact .boolean
        case _ => exact .boolean
        case _ => exact .null
        case _ => exact .enum (hs.isName hk)
      case _ =>
        refine .ite (fun _ => .after passes_advance fun _ => .after passes_lexemes fun _ => ?_) fun hc => ?_
        · split
          · exact .ite (fun _ => .failAt) fun _ => .failAt
          · exact .failAt
        · exact gives_variable'.bind fun n hn => .pure (.variable (by simpa using hc) hn)
      case _ => exact .unexpected

theorem gives_arguments {constant : Bool} :
    (arguments constant fuel).Gives room fun as => ∀ a ∈ as, a.Valid constant room :=
  gives_optionalMany <| gives_name.bind fun _ hn => .after passes_expect fun _ =>
    gives_value.bind fun _ hv => .pure ⟨hn, hv⟩

theorem gives_directives {constant : Bool} :
    (directives constant fuel n).Gives room fun ds => ∀ d ∈ ds, d.Valid constant room := by
  induction n
  case zero => exact .unexpected
  case succ n hi =>
    refine .after passes_optional fun _ => .ite (fun _ => ?_) fun _ => .pure (by simp)
    exact gives_name.bind fun _ hn => gives_arguments.bind fun _ ha => hi.bind fun _ hd =>
      .pure (List.forall_mem_cons.mpr ⟨⟨hn, ha⟩, hd⟩)

theorem gives_typeReference : (typeReference fuel).Gives room (TypeReference.Valid room) := by
  induction fuel generalizing room
  case zero => exact .unexpected
  case succ fuel hi =>
    have marked (t : TypeReference) (h : t.Valid room) (hn : ∀ t', t ≠ .nonNull t') :
        Reader.Gives room (TypeReference.Valid room) do
          if ← optional .bang then return .nonNull t else return t :=
      .after passes_optional fun _ => .ite (fun _ => .pure (.nonNull h hn)) fun _ => .pure h
    refine .after passes_optional fun _ => .ite (fun _ => ?_) fun _ => ?_
    · refine (Reader.Gives.nested fun n hn => hi.mono fun t h => ?_).bind
        fun t (h : (TypeReference.list t).Valid room) => ?_
      · exact hn ▸ .list h
      · exact .after passes_expect fun _ => marked _ h (by simp)
    · exact gives_name.bind fun _ hn => marked _ (.named hn) (by simp)

theorem of_name {c c' : Cursor} {s : String} (h : name c = .ok (s, c')) :
    ∃ l rest, c.rest = l :: rest ∧ l.kind = .name ∧ s = l.spelling := by
  have ⟨l, c₁, h₁, h₂⟩ := ok_of_bind h
  cases h₂
  have ⟨ls, c₂, h₂, h₃⟩ := ok_of_bind h₁
  cases h₂
  cases hc : c.rest <;> simp only [hc] at h₃
  case nil => cases h₃
  case cons l' rest =>
    split at h₃
    case isTrue hk =>
      have ⟨_, _, _, h₄⟩ := ok_of_bind h₃
      cases h₄
      exact ⟨_, _, rfl, hk, rfl⟩
    case isFalse => cases h₃

theorem gives_fragmentName : fragmentName.Gives room fun n => isName n ∧ n ≠ "on" := by
  refine .of_passes passes_fragmentName fun c n c' hc hr => ?_
  have ⟨ls, c₁, h₁, hr⟩ := ok_of_bind hr
  cases h₁
  split at hr
  case isTrue =>
    have ⟨_, _, h, _⟩ := ok_of_bind hr
    cases h
  case isFalse ho =>
    refine ⟨(gives_name hc hr).left, ?_⟩
    have ⟨l, rest, hl, hk, hn⟩ := of_name hr
    simpa [hl, standsFor, hk, Lexeme.value, hn, TokenKind.isPunctuator, TokenKind.mark?] using ho

mutual

theorem gives_selection (room : Nat) : (fuel : Nat) → (selection fuel).Gives room (Selection.Valid room)
  | 0 => .unexpected
  | fuel + 1 => by
    refine .after passes_optional fun _ => .ite (fun _ => ?spread) fun _ => ?field
    case spread =>
      have inline {condition : Option String} (hn : ∀ c, condition = some c → isName c) :
          Reader.Gives room (Selection.Valid room) do
            let ds ← directives false fuel fuel
            return .inline condition ds (← selections fuel) :=
        gives_directives.bind fun _ hd => (gives_selections room fuel).bind fun _ ⟨_, he, hs⟩ => by
          subst he
          exact .pure (.inline hn hd hs)
      refine .after passes_optionalKeyword fun conditional => .after passes_peekIs fun _ => .ite (fun _ => ?_) fun _ => ?_
      · exact gives_fragmentName.bind fun _ hn => gives_directives.bind fun _ hd => .pure (.spread hn.left hn.right hd)
      · refine .ite (fun _ => gives_name.bind fun c hc => .pure_bind (inline ?_)) fun _ => .pure_bind (inline ?_)
        · simpa using hc
        · simp
    case field =>
      have tail {label : Option String} {n : String} (hl : ∀ l, label = some l → isName l) (hn : isName n) :
          Reader.Gives room (Selection.Valid room) do
            let as ← arguments false fuel
            let ds ← directives false fuel fuel
            let inner ← if ← peekIs .braceL then pure (some (← selections fuel)) else pure none
            return .field label n as ds inner :=
        gives_arguments.bind fun _ ha => gives_directives.bind fun _ hd => .after passes_peekIs fun _ => .ite
          (fun _ => (gives_selections room fuel).bind fun _ ⟨_, he, hs⟩ => .pure_bind (by
            subst he
            exact .pure (.branch hl hn ha hd hs)))
          fun _ => .pure_bind (.pure (.leaf hl hn ha hd))
      refine gives_name.bind fun first hf => .after passes_optional fun _ => .ite
        (fun _ => gives_name.bind fun n hn => .pure_bind (tail ?_ hn)) fun _ => .pure_bind (tail ?_ hf)
      · simpa using hf
      · simp

theorem gives_selections (room : Nat) : (fuel : Nat) → (selections fuel).Gives room fun ss =>
    ∃ n, room = n + 1 ∧ ∀ s ∈ ss, Selection.Valid n s
  | 0 => .unexpected
  | fuel + 1 => .nested fun n hn => (gives_any (gives_selection n fuel)).mono fun _ h => ⟨n, hn, h⟩

end

theorem gives_defaultValue : (defaultValue fuel).Gives room fun v => ∀ x, v = some x → x.Valid true room := by
  refine .after passes_optional fun _ => .ite (fun _ => ?_) fun _ => .pure (by simp)
  exact gives_value.bind fun _ hv => .pure (by simpa using hv)

theorem gives_variableDefinition : (variableDefinition fuel).Gives room (VariableDefinition.Valid room) :=
  .after passes_description fun _ => gives_variable'.bind fun _ hn => .after passes_expect fun _ =>
    gives_typeReference.bind fun _ ht => gives_defaultValue.bind fun _ hv => gives_directives.bind fun _ hd =>
      .pure ⟨hn, ht, hv, hd⟩

theorem gives_operation : (operation fuel).Gives maxDepth Definition.Valid := by
  have whole {d : Option Description} {k : OperationKind} {n : Option String} {vs : List VariableDefinition}
      {ds : List Directive} (hv : ∀ v ∈ vs, v.Valid maxDepth) (hd : ∀ d ∈ ds, d.Valid false maxDepth) :
      Reader.Gives maxDepth Definition.Valid do
        return .operation d k n vs ds (← selections fuel) :=
    (gives_selections maxDepth fuel).bind fun ss ⟨n, hn, hs⟩ => by
      cases hn
      exact .pure ⟨hv, hd, hs⟩
  refine .after passes_peekIs fun _ => .ite (fun _ => whole (by simp) (by simp)) fun _ => ?_
  refine .after passes_description fun _ => .after passes_operationKind fun _ => .after passes_peekIs fun _ => ?_
  refine .ite (fun _ => .after passes_name fun _ => .pure_bind ?_) fun _ => .pure_bind ?_
  all_goals
    exact (gives_optionalMany gives_variableDefinition).bind fun _ hv => gives_directives.bind fun _ hd => whole hv hd

theorem gives_fragment : (fragment fuel).Gives room Definition.Valid :=
  .after passes_description fun _ => .after passes_expectKeyword fun _ => .after passes_fragmentName fun _ =>
    .after passes_expectKeyword fun _ => .after passes_name fun _ => .after passes_directives fun _ =>
      .after (passes_selections fuel) fun _ => .pure trivial

theorem gives_typeDefinition {keyword : String} : (typeDefinition fuel keyword).Gives room Definition.Valid :=
  .after passes_description fun _ => .after passes_expectKeyword fun _ => .after passes_name fun _ =>
    .after passes_typeBody fun _ => .pure trivial

theorem gives_schema : (schema fuel).Gives room Definition.Valid :=
  .after passes_description fun _ => .after passes_expectKeyword fun _ => .after passes_directives fun _ =>
    .after (passes_many passes_rootOperation) fun _ => .pure trivial

theorem gives_directive : (directive fuel).Gives room Definition.Valid :=
  .after passes_description fun _ => .after passes_expectKeyword fun _ => .after passes_expect fun _ =>
    .after passes_name fun _ => .after (passes_optionalMany passes_inputDefinition) fun _ =>
      .after passes_directives fun _ => .after passes_optionalKeyword fun _ =>
        .after passes_expectKeyword fun _ => .after (passes_separated passes_directiveLocation) fun _ => .pure trivial

theorem gives_extension : (extension fuel).Gives room Definition.Valid := by
  refine .after passes_lookahead fun ahead => ?_
  split
  case _ => exact .failAt
  case _ =>
    refine .ite (fun _ => ?_) fun _ => .ite (fun _ => ?_) fun _ => .ite (fun _ => ?_) fun _ => .failAt
    all_goals refine .after passes_advance fun _ => .after passes_advance fun _ => ?_
    · exact .after passes_directives fun _ => .after (passes_optionalMany passes_rootOperation) fun _ =>
        .ite (fun _ => .unexpected_bind) fun _ => .pure trivial
    · exact .after passes_expect fun _ => .after passes_name fun _ => .after passes_directives fun _ =>
        .ite (fun _ => .unexpected_bind) fun _ => .pure trivial
    · exact .after passes_name fun _ => .after passes_typeBody fun _ =>
        .ite (fun _ => .unexpected_bind) fun _ => .pure trivial

theorem gives_definition : (definition fuel).Gives maxDepth Definition.Valid := by
  refine .after passes_lexemes fun here => .ite (fun _ => .after passes_lookahead fun _ => ?_) fun _ => .pure_bind ?_
  all_goals
    dsimp only
    split
    case _ => exact .failAt
    case _ =>
      refine .ite (fun _ => .ite (fun _ => .failAt) fun _ => gives_operation) fun _ => .ite (fun _ => ?_) fun _ => .failAt
      exact .ite (fun _ => gives_schema) fun _ => .ite (fun _ => gives_typeDefinition) fun _ =>
        .ite (fun _ => gives_directive) fun _ => .ite (fun _ => gives_operation) fun _ =>
          .ite (fun _ => gives_fragment) fun _ => .ite (fun _ => .failAt) fun _ =>
            .ite (fun _ => gives_extension) fun _ => .failAt

theorem valid_of_document {c c' : Cursor} {ds : List (Definition × Nat)} (hc : c.Fine maxDepth)
    (h : document fuel n c = .ok (ds, c')) : ∀ d ∈ ds, d.1.Valid := by
  induction n generalizing c ds
  case zero => cases h
  case succ n hi =>
    have ⟨d, c₁, ds₁, hd, hs, hn⟩ := of_document h
    have ⟨hv, hc₁⟩ := gives_definition hc hd
    subst hs
    refine List.forall_mem_cons.mpr ⟨hv, ?_⟩
    cases hn
    case inl hn => simp [hn]
    case inr hn =>
      have ⟨_, hk, hr⟩ := hn
      cases hk
      exact hi hc₁ hr

end Grammar

theorem valid_of_parse {text : String} {d : Placed} {ds : List Placed} (h : parse text = .ok ds) (hd : d ∈ ds) :
    d.definition.Valid := by
  have ⟨_, _, _, es, _, hr, he⟩ := exists_document_of_parse h
  have hs := Grammar.valid_of_document ⟨fun _ => TokenStream.spelled_ofString, rfl⟩ hr
  subst he
  have ⟨e, hm, he⟩ := List.mem_map.mp hd
  exact he ▸ hs e hm

end QueryGlean.Graphql
