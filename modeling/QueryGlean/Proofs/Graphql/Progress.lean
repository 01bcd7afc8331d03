import QueryGlean.Graphql.Parser

namespace QueryGlean.Graphql.Grammar

-- A cursor at least `n` lexemes further on, with the same brackets open. The last lexeme in front of an
-- unreadable token is never passed.
structure Cursor.Ahead (n : Nat) (c c' : Cursor) : Prop where
  rest   : c'.rest <:+ c.rest
  depth  : c'.depth = c.depth
  length : c'.rest.length + n ≤ c.rest.length
  broken : c'.broken = c.broken
  held   : c.broken → c.rest ≠ [] → c'.rest ≠ []

-- Whatever is read, at least `n` lexemes are passed. Nothing is said of a rule that stops.
def Reader.Passes {α : Type} (n : Nat) (r : Reader α) : Prop :=
  ∀ ⦃c a c'⦄, r c = .ok (a, c') → c.Ahead n c'

variable {α β : Type} {n m fuel : Nat} {r r₁ r₂ item : Reader α} {f : α → Reader β} {c c₁ c₂ : Cursor}

theorem Cursor.Ahead.refl (c : Cursor) : c.Ahead 0 c :=
  ⟨List.suffix_refl _, rfl, Nat.le_refl _, rfl, fun _ h => h⟩

theorem Cursor.Ahead.trans (h₁ : c.Ahead n c₁) (h₂ : c₁.Ahead m c₂) : c.Ahead (n + m) c₂ where
  rest   := h₂.rest.trans h₁.rest
  depth  := h₂.depth.trans h₁.depth
  length := by
    have := h₁.length
    have := h₂.length
    omega
  broken := h₂.broken.trans h₁.broken
  held   := fun hb hc => h₂.held (h₁.broken ▸ hb) (h₁.held hb hc)

theorem Cursor.Ahead.zero (h : c.Ahead n c₁) : c.Ahead 0 c₁ :=
  { h with length := Nat.le_of_add_right_le h.length }

theorem Reader.ok_of_bind {c c' : Cursor} {b : β} (h : (r >>= f) c = .ok (b, c')) :
    ∃ a c₁, r c = .ok (a, c₁) ∧ f a c₁ = .ok (b, c') := by
  change Reader.bind r f c = _ at h
  unfold Reader.bind at h
  split at h
  case _ a c₁ hr => exact ⟨a, c₁, hr, h⟩
  case _ => simp at h

namespace Reader.Passes

theorem zero (h : r.Passes n) : r.Passes 0 :=
  fun _ _ _ hr => (h hr).zero

theorem pure {a : α} : (Pure.pure a : Reader α).Passes 0 := by
  intro c a c' h
  cases h
  exact .refl c

theorem bind (hr : r.Passes 0) (hf : ∀ a, (f a).Passes n) : (r >>= f).Passes n := by
  intro c b c' h
  have ⟨a, c₁, h₁, h₂⟩ := ok_of_bind h
  exact Nat.zero_add n ▸ (hr h₁).trans (hf a h₂)

theorem first (hr : r.Passes n) (hf : ∀ a, (f a).Passes 0) : (r >>= f).Passes n := by
  intro c b c' h
  have ⟨a, c₁, h₁, h₂⟩ := ok_of_bind h
  exact (hr h₁).trans (hf a h₂)

theorem ite {p : Prop} [Decidable p] (h₁ : r₁.Passes n) (h₂ : r₂.Passes n) :
    (if p then r₁ else r₂).Passes n := by
  split
  · exact h₁
  · exact h₂

end Reader.Passes

open Reader (ok_of_bind Passes)

theorem passes_failAt {left : Nat} {fault : Fault} : (failAt left fault : Reader α).Passes n := by
  intro c a c' h
  cases h

theorem passes_unexpected : (unexpected : Reader α).Passes n := by
  intro c a c' h
  cases h

theorem passes_lexemes : lexemes.Passes 0 := by
  intro c a c' h
  cases h
  exact .refl c

theorem passes_peekIs {k : TokenKind} : (peekIs k).Passes 0 := by
  intro c a c' h
  cases h
  exact .refl c

theorem of_advance {c c' : Cursor} {u : Unit} (h : advance c = .ok (u, c')) :
    c' = { c with rest := c.rest.tail } ∧ (c.broken → c.rest ≠ [] → c.rest.tail ≠ []) := by
  unfold advance at h
  split at h
  case _ hc =>
    cases h
    exact ⟨by rw [hc, List.tail_nil, ← hc], fun _ hn => absurd hc hn⟩
  case _ hc =>
    split at h
    case isTrue => cases h
    case isFalse hb =>
      cases h
      refine ⟨by rw [hc, List.tail_cons], fun h _ he => hb ?_⟩
      rw [hc, List.tail_cons] at he
      simp [h, he]

theorem passes_advance : advance.Passes 0 := by
  intro c u c' h
  have ⟨he, hb⟩ := of_advance h
  subst he
  exact ⟨List.tail_suffix _, rfl, by simp, rfl, hb⟩

theorem ahead_of_advance {c c' : Cursor} {u : Unit} (h : advance c = .ok (u, c')) (hc : c.rest ≠ []) :
    c.Ahead 1 c' := by
  refine { passes_advance h with length := ?_ }
  have := List.length_pos_iff.mpr hc
  rw [(of_advance h).left, List.length_tail]
  omega

theorem of_lookahead {c c' : Cursor} {ls : List Lexeme} (h : lookahead c = .ok (ls, c')) :
    ls = c.rest.drop 1 ∧ c' = c := by
  unfold lookahead at h
  dsimp only at h
  split at h
  · simp at h
  · cases h; exact ⟨rfl, rfl⟩

theorem passes_lookahead : lookahead.Passes 0 := by
  intro c ls c' h
  rw [(of_lookahead h).right]
  exact .refl c

theorem passes_expect {k : TokenKind} : (expect k).Passes 1 := by
  intro c l c' h
  have ⟨ls, c₁, h₁, h₂⟩ := ok_of_bind h
  cases h₁
  cases hc : c.rest <;> simp only [hc] at h₂
  case nil => cases h₂
  case cons l' rest =>
    split at h₂
    case isTrue =>
      have ⟨_, c₂, h₃, h₄⟩ := ok_of_bind h₂
      cases h₄
      exact ahead_of_advance h₃ (by simp [hc])
    case isFalse => cases h₂

theorem passes_optional {k : TokenKind} : (Grammar.optional k).Passes 0 :=
  passes_peekIs.bind fun _ => .ite (passes_advance.bind fun _ => .pure) .pure

theorem passes_optionalKeyword {word : String} : (optionalKeyword word).Passes 0 :=
  passes_lexemes.bind fun _ => .ite (passes_advance.bind fun _ => .pure) .pure

theorem ahead_of_optionalKeyword {word : String} {c c' : Cursor}
    (h : optionalKeyword word c = .ok (true, c')) : c.Ahead 1 c' := by
  have ⟨ls, c₁, h₁, h₂⟩ := ok_of_bind h
  cases h₁
  cases hc : c.rest <;> simp only [hc] at h₂
  case nil => cases h₂
  case cons =>
    split at h₂
    case isTrue =>
      have ⟨_, c₂, h₃, h₄⟩ := ok_of_bind h₂
      cases h₄
      exact ahead_of_advance h₃ (by simp [hc])
    case isFalse => cases h₂

theorem passes_expectKeyword {word : String} : (expectKeyword word).Passes 1 := by
  intro c u c' h
  have ⟨b, c₁, h₁, h₂⟩ := ok_of_bind h
  cases b
  case false =>
    have ⟨_, _, _, h₃⟩ := ok_of_bind h₂
    cases h₃
  case true =>
    cases h₂
    exact ahead_of_optionalKeyword h₁

theorem passes_name : name.Passes 1 :=
  passes_expect.first fun _ => .pure

theorem passes_itemsUntil {closing : TokenKind} (h : item.Passes 0) :
    (itemsUntil closing item fuel).Passes 0 := by
  induction fuel
  case zero => exact passes_unexpected
  case succ fuel hi =>
    exact passes_optional.bind fun _ => .ite .pure (h.bind fun _ => hi.bind fun _ => .pure)

theorem passes_any {opening closing : TokenKind} (h : item.Passes 0) :
    (Grammar.any fuel opening closing item).Passes 1 :=
  passes_expect.first fun _ => passes_itemsUntil h

theorem passes_many {opening closing : TokenKind} (h : item.Passes 0) :
    (many fuel opening closing item).Passes 1 :=
  passes_expect.first fun _ => h.bind fun _ => (passes_itemsUntil h).bind fun _ => .pure

theorem passes_optionalMany {opening closing : TokenKind} (h : item.Passes 0) :
    (optionalMany fuel opening closing item).Passes 0 :=
  passes_peekIs.bind fun _ => .ite (passes_many h).zero .pure

theorem passes_separated_go {mark : TokenKind} (h : item.Passes 0) :
    (separated.go mark item fuel).Passes 0 := by
  induction fuel
  case zero => exact passes_unexpected
  case succ fuel hi =>
    exact h.bind fun _ => passes_optional.bind fun _ => .ite (hi.bind fun _ => .pure) .pure

theorem passes_separated {mark : TokenKind} (h : item.Passes 0) :
    (separated mark item fuel).Passes 0 :=
  passes_optional.bind fun _ => passes_separated_go h

theorem passes_nested (h : r.Passes n) : (nested r).Passes n := by
  intro c a c' hr
  unfold nested at hr
  split at hr
  case isTrue => cases hr
  case isFalse =>
    split at hr
    case _ h' =>
      cases hr
      exact { h h' with depth := rfl }
    case _ => cases hr

theorem passes_variable' : variable'.Passes 0 :=
  passes_expect.zero.bind fun _ => passes_name.zero

theorem passes_value {constant : Bool} : (value constant fuel).Passes 0 := by
  induction fuel
  case zero => exact passes_unexpected
  case succ fuel hi =>
    refine passes_lexemes.bind fun here => ?_
    split
    case _ => exact passes_unexpected
    case _ =>
      split
      case _ => exact (passes_nested <| passes_any hi).zero.bind fun _ => .pure
      case _ =>
        refine (passes_nested <| passes_any ?_).zero.bind fun _ => .pure
        exact passes_name.zero.bind fun _ => passes_expect.zero.bind fun _ => hi.bind fun _ => .pure
      case _ => exact passes_advance.bind fun _ => .pure
      case _ => exact passes_advance.bind fun _ => .pure
      case _ => exact passes_advance.bind fun _ => .pure
      case _ => exact passes_advance.bind fun _ => .pure
      case _ => exact passes_advance.bind fun _ => .pure
      case _ =>
        refine .ite (passes_advance.bind fun _ => passes_lexemes.bind fun _ => ?_) ?_
        · split
          · exact .ite passes_failAt passes_failAt
          · exact passes_failAt
        · exact passes_variable'.bind fun _ => .pure
      case _ => exact passes_unexpected

theorem passes_arguments {constant : Bool} : (arguments constant fuel).Passes 0 :=
  passes_optionalMany <| passes_name.zero.bind fun _ =>
    passes_expect.zero.bind fun _ => passes_value.bind fun _ => .pure

theorem passes_directives {constant : Bool} : (directives constant fuel n).Passes 0 := by
  induction n
  case zero => exact passes_unexpected
  case succ n hi =>
    exact passes_optional.bind fun _ => .ite
      (passes_name.zero.bind fun _ => passes_arguments.bind fun _ => hi.bind fun _ => .pure) .pure

theorem passes_typeReference : (typeReference fuel).Passes 0 := by
  induction fuel
  case zero => exact passes_unexpected
  case succ fuel hi =>
    refine passes_optional.bind fun _ => .ite ?_ ?_
    · refine (passes_nested hi).bind fun _ => passes_expect.zero.bind fun _ => Passes.pure.bind fun _ => ?_
      exact passes_optional.bind fun _ => .ite .pure .pure
    · refine passes_name.zero.bind fun _ => Passes.pure.bind fun _ => ?_
      exact passes_optional.bind fun _ => .ite .pure .pure

theorem passes_fragmentName : fragmentName.Passes 0 :=
  passes_lexemes.bind fun _ => .ite (passes_unexpected.bind fun _ => passes_name.zero) passes_name.zero

mutual

theorem passes_selection : (fuel : Nat) → (selection fuel).Passes 0
  | 0 => passes_unexpected
  | fuel + 1 => by
    have hs := (passes_selections fuel).zero
    refine passes_optional.bind fun _ => .ite ?spread ?field
    case spread =>
      refine passes_optionalKeyword.bind fun conditional => passes_peekIs.bind fun _ => .ite ?_ ?_
      · exact passes_fragmentName.bind fun _ => passes_directives.bind fun _ => .pure
      · refine .ite (passes_name.zero.bind fun _ => Passes.pure.bind fun _ => ?_) (Passes.pure.bind fun _ => ?_)
        all_goals exact passes_directives.bind fun _ => hs.bind fun _ => .pure
    case field =>
      refine passes_name.zero.bind fun _ => passes_optional.bind fun _ => .ite
        (passes_name.zero.bind fun _ => Passes.pure.bind fun _ => ?_) (Passes.pure.bind fun _ => ?_)
      all_goals
        refine passes_arguments.bind fun _ => passes_directives.bind fun _ => passes_peekIs.bind fun _ => ?_
        exact .ite (hs.bind fun _ => Passes.pure.bind fun _ => .pure) (Passes.pure.bind fun _ => .pure)

theorem passes_selections : (fuel : Nat) → (selections fuel).Passes 1
  | 0 => passes_unexpected
  | fuel + 1 => passes_nested <| passes_any <| passes_selection fuel

end

theorem passes_description : description.Passes 0 := by
  refine passes_lexemes.bind fun _ => ?_
  split
  case _ => exact .ite (passes_advance.bind fun _ => .pure) .pure
  case _ => exact .pure

theorem passes_operationKind : operationKind.Passes 1 := by
  refine passes_lexemes.bind fun _ => passes_expect.first fun _ => ?_
  split
  case _ => exact .pure
  case _ => exact passes_failAt

theorem passes_defaultValue : (defaultValue fuel).Passes 0 :=
  passes_optional.bind fun _ => .ite (passes_value.bind fun _ => .pure) .pure

theorem passes_variableDefinition : (variableDefinition fuel).Passes 0 :=
  passes_description.bind fun _ => passes_variable'.bind fun _ => passes_expect.zero.bind fun _ =>
    passes_typeReference.bind fun _ => passes_defaultValue.bind fun _ => passes_directives.bind fun _ => .pure

theorem passes_operation : (operation fuel).Passes 1 := by
  refine passes_peekIs.bind fun _ => .ite ((passes_selections fuel).first fun _ => .pure) ?_
  refine passes_description.bind fun _ => passes_operationKind.first fun _ => passes_peekIs.bind fun _ => ?_
  refine .ite (passes_name.zero.bind fun _ => Passes.pure.bind fun _ => ?_) (Passes.pure.bind fun _ => ?_)
  all_goals
    exact (passes_optionalMany passes_variableDefinition).bind fun _ => passes_directives.bind fun _ =>
      (passes_selections fuel).zero.bind fun _ => .pure

theorem passes_fragment : (fragment fuel).Passes 1 :=
  passes_description.bind fun _ => passes_expectKeyword.first fun _ => passes_fragmentName.bind fun _ =>
    passes_expectKeyword.zero.bind fun _ => passes_name.zero.bind fun _ => passes_directives.bind fun _ =>
      (passes_selections fuel).zero.bind fun _ => .pure

theorem passes_inputDefinition : (inputDefinition fuel).Passes 0 :=
  passes_description.bind fun _ => passes_name.zero.bind fun _ => passes_expect.zero.bind fun _ =>
    passes_typeReference.bind fun _ => passes_defaultValue.bind fun _ => passes_directives.bind fun _ => .pure

theorem passes_fieldDefinition : (fieldDefinition fuel).Passes 0 :=
  passes_description.bind fun _ => passes_name.zero.bind fun _ =>
    (passes_optionalMany passes_inputDefinition).bind fun _ => passes_expect.zero.bind fun _ =>
      passes_typeReference.bind fun _ => passes_directives.bind fun _ => .pure

theorem passes_enumValueDefinition : (enumValueDefinition fuel).Passes 0 := by
  refine passes_description.bind fun _ => passes_lexemes.bind fun _ => .ite
    (passes_failAt.bind fun _ => ?_) ?_
  all_goals exact passes_name.zero.bind fun _ => passes_directives.bind fun _ => .pure

theorem passes_rootOperation : rootOperation.Passes 0 :=
  passes_operationKind.zero.bind fun _ => passes_expect.zero.bind fun _ =>
    passes_name.zero.bind fun _ => .pure

theorem passes_interfaces : (interfaces fuel).Passes 0 :=
  passes_optionalKeyword.bind fun _ => .ite (passes_separated passes_name.zero) .pure

theorem passes_typeBody {keyword : String} : (typeBody fuel keyword).Passes 0 := by
  have fields : Passes 0 (optionalMany fuel .braceL .braceR (fieldDefinition fuel)) :=
    passes_optionalMany passes_fieldDefinition
  unfold typeBody
  split
  case _ =>
    exact passes_interfaces.bind fun _ => passes_directives.bind fun _ => fields.bind fun _ => .pure
  case _ =>
    exact passes_interfaces.bind fun _ => passes_directives.bind fun _ => fields.bind fun _ => .pure
  case _ =>
    exact passes_directives.bind fun _ => passes_optional.bind fun _ => .ite
      ((passes_separated passes_name.zero).bind fun _ => .pure) (Passes.pure.bind fun _ => .pure)
  case _ =>
    exact passes_directives.bind fun _ =>
      (passes_optionalMany passes_enumValueDefinition).bind fun _ => .pure
  case _ =>
    exact passes_directives.bind fun _ => (passes_optionalMany passes_inputDefinition).bind fun _ => .pure
  case _ => exact passes_directives.bind fun _ => .pure

theorem passes_typeDefinition {keyword : String} : (typeDefinition fuel keyword).Passes 1 :=
  passes_description.bind fun _ => passes_expectKeyword.first fun _ => passes_name.zero.bind fun _ =>
    passes_typeBody.bind fun _ => .pure

theorem passes_schema : (schema fuel).Passes 1 :=
  passes_description.bind fun _ => passes_expectKeyword.first fun _ => passes_directives.bind fun _ =>
    (passes_many passes_rootOperation).zero.bind fun _ => .pure

theorem passes_directiveLocation : directiveLocation.Passes 0 :=
  passes_lexemes.bind fun _ => passes_name.zero.bind fun _ => .ite .pure passes_failAt

theorem passes_directive : (directive fuel).Passes 1 :=
  passes_description.bind fun _ => passes_expectKeyword.first fun _ => passes_expect.zero.bind fun _ =>
    passes_name.zero.bind fun _ => (passes_optionalMany passes_inputDefinition).bind fun _ =>
      passes_directives.bind fun _ => passes_optionalKeyword.bind fun _ =>
        passes_expectKeyword.zero.bind fun _ => (passes_separated passes_directiveLocation).bind fun _ => .pure

theorem ahead_of_advance_bind {f : Unit → Reader β} {c c' : Cursor} {b : β} (hc : c.rest ≠ [])
    (hf : ∀ u, (f u).Passes 0) (h : (advance >>= f) c = .ok (b, c')) : c.Ahead 1 c' := by
  have ⟨u, c₁, h₁, h₂⟩ := ok_of_bind h
  exact (ahead_of_advance h₁ hc).trans (hf u h₂)

-- The keyword that stands behind "extend" shows that there is a lexeme to pass.
theorem passes_extension : (extension fuel).Passes 1 := by
  intro c d c' h
  have ⟨ahead, c₁, h₁, h₂⟩ := ok_of_bind h
  have ⟨ha, he⟩ := of_lookahead h₁
  subst he
  cases hl : ahead.head? <;> simp only [hl] at h₂
  case none => cases h₂
  case some l =>
    have hc : c₁.rest ≠ [] := by
      intro hc
      simp [ha, hc] at hl
    split at h₂
    case isTrue =>
      refine ahead_of_advance_bind hc (fun _ => passes_advance.bind fun _ => ?_) h₂
      exact passes_directives.bind fun _ => (passes_optionalMany passes_rootOperation).bind fun _ => .ite
        (passes_unexpected.bind fun _ => .pure) .pure
    case isFalse =>
      split at h₂
      case isTrue =>
        refine ahead_of_advance_bind hc (fun _ => passes_advance.bind fun _ => ?_) h₂
        exact passes_expect.zero.bind fun _ => passes_name.zero.bind fun _ => passes_directives.bind fun _ =>
          .ite (passes_unexpected.bind fun _ => .pure) .pure
      case isFalse =>
        split at h₂
        case isTrue =>
          refine ahead_of_advance_bind hc (fun _ => passes_advance.bind fun _ => ?_) h₂
          exact passes_name.zero.bind fun _ => passes_typeBody.bind fun _ => .ite
            (passes_unexpected.bind fun _ => .pure) .pure
        case isFalse => cases h₂

theorem passes_definition : (definition fuel).Passes 1 := by
  refine passes_lexemes.bind fun here => .ite (passes_lookahead.bind fun _ => ?_) (Passes.pure.bind fun _ => ?_)
  all_goals
    dsimp only
    split
    case _ => exact passes_failAt
    case _ =>
      refine .ite (.ite passes_failAt passes_operation) (.ite ?_ passes_failAt)
      exact .ite passes_schema <| .ite passes_typeDefinition <| .ite passes_directive <|
        .ite passes_operation <| .ite passes_fragment <| .ite passes_failAt <|
        .ite passes_extension passes_failAt

theorem of_document {c c' : Cursor} {ds : List (Definition × Nat)} (h : document fuel n c = .ok (ds, c')) :
    ∃ d c₁ ds₁, definition fuel c = .ok (d, c₁) ∧ ds = (d, c.rest.length) :: ds₁ ∧
      (ds₁ = [] ∧ c₁.rest = [] ∨ ∃ k, n = k + 1 ∧ document fuel k c₁ = .ok (ds₁, c')) := by
  cases n
  case zero => cases h
  case succ k =>
    have ⟨here, c₁, h₁, h⟩ := ok_of_bind h
    cases h₁
    have ⟨d, c₂, h₂, h⟩ := ok_of_bind h
    have ⟨rest, c₃, h₃, h⟩ := ok_of_bind h
    cases h₃
    split at h
    case isTrue he =>
      cases h
      exact ⟨d, _, [], h₂, rfl, .inl ⟨rfl, List.isEmpty_iff.mp he⟩⟩
    case isFalse =>
      have ⟨ds', c₄, h₄, h⟩ := ok_of_bind h
      cases h
      exact ⟨d, _, ds', h₂, rfl, .inr ⟨k, rfl, h₄⟩⟩

-- Each definition starts with fewer lexemes left than the one before it.
theorem lefts_of_document {c c' : Cursor} {ds : List (Definition × Nat)}
    (h : document fuel n c = .ok (ds, c')) :
    (ds.map (·.2)).Pairwise (· > ·) ∧ ∀ left ∈ ds.map (·.2), 0 < left ∧ left ≤ c.rest.length := by
  induction n generalizing c ds
  case zero => cases h
  case succ n hi =>
    have ⟨d, c₁, ds₁, hd, hs, hn⟩ := of_document h
    have hp := (passes_definition hd).length
    subst hs
    cases hn
    case inl hn =>
      rw [hn.left]
      simp
      omega
    case inr hn =>
      have ⟨_, hk, hr⟩ := hn
      cases hk
      have ⟨hs, hb⟩ := hi hr
      simp only [List.map_cons, List.pairwise_cons, List.mem_cons, forall_eq_or_imp]
      refine ⟨⟨fun left hl => ?_, hs⟩, ?_, fun left hl => ?_⟩
      · have := hb left hl
        omega
      · omega
      · have := hb left hl
        omega

-- A document ends at the end of the text, and no definition gets there past an unreadable token.
theorem not_broken_of_document {c c' : Cursor} {ds : List (Definition × Nat)}
    (h : document fuel n c = .ok (ds, c')) (hc : c.rest ≠ []) : c.broken = false := by
  induction n generalizing c ds
  case zero => cases h
  case succ n hi =>
    have ⟨d, c₁, ds₁, hd, _, hn⟩ := of_document h
    have ha := passes_definition hd
    refine Bool.eq_false_iff.mpr fun hb => ?_
    have hr := ha.held hb hc
    cases hn
    case inl hn => exact hr hn.right
    case inr hn =>
      have ⟨_, hk, hn⟩ := hn
      cases hk
      simp [← ha.broken, hi hn hr] at hb

end QueryGlean.Graphql.Grammar
