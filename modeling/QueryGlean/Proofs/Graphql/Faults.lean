import Mathlib
import QueryGlean.Proofs.Graphql.Plain
import QueryGlean.Proofs.Graphql.Progress

namespace QueryGlean.Graphql

open Markup (Inert)

def Definition.IsNamedPlainly (d : Definition) : Prop :=
  ∀ n ∈ d.name?, '[' ∉ n.toList

theorem Definition.isNamedPlainly_of_none {d : Definition} (h : d.name? = none) : IsNamedPlainly d := by
  simp [IsNamedPlainly, h]

theorem Definition.isNamedPlainly_of_some {d : Definition} {s : String} (h : d.name? = some s) (hs : '[' ∉ s.toList) :
    IsNamedPlainly d := by
  simpa [IsNamedPlainly, h] using hs

namespace Grammar

def Cursor.IsPlain (c : Cursor) : Prop :=
  ∀ l ∈ c.rest, Graphql.IsPlain l.spelling.toList

structure Reader.Tells {α : Type} (P : α → Prop) (r : Reader α) : Prop where
  ok    : ∀ ⦃c a c'⦄, c.IsPlain → r c = .ok (a, c') → P a ∧ c'.IsPlain
  error : ∀ ⦃c left f⦄, c.IsPlain → r c = .error (.fault left f) → f.IsInert

abbrev Reader.Quiet {α : Type} (r : Reader α) : Prop :=
  r.Tells fun _ => True

variable {α β : Type} {n fuel : Nat} {r r₁ r₂ item : Reader α} {f : α → Reader β} {P : α → Prop} {Q : β → Prop}
variable {ls : List Lexeme} {l : Lexeme}

namespace Reader.Tells

theorem pure {a : α} (h : P a) : (Pure.pure a : Reader α).Tells P where
  ok _ _ _ hc hr := by cases hr; exact ⟨h, hc⟩
  error _ _ _ _ hr := by cases hr

theorem bind (hr : r.Tells P) (hf : ∀ a, P a → (f a).Tells Q) : (r >>= f).Tells Q where
  ok c b c' hc h := by
    have ⟨a, c₁, h₁, h₂⟩ := ok_of_bind h
    have ⟨ha, hc₁⟩ := hr.ok hc h₁
    exact (hf a ha).ok hc₁ h₂
  error c left fault hc h := by
    change Reader.bind r f c = _ at h
    unfold Reader.bind at h
    split at h
    case h_1 a c₁ h₁ =>
      have ⟨ha, hc₁⟩ := hr.ok hc h₁
      exact (hf a ha).error hc₁ h
    case h_2 h₁ => cases h; exact hr.error hc h₁

theorem mono (h : r.Tells P) {P' : α → Prop} (hp : ∀ a, P a → P' a) : r.Tells P' where
  ok _ _ _ hc hr := (h.ok hc hr).imp_left (hp _)
  error _ _ _ hc hr := h.error hc hr

theorem quiet (h : r.Tells P) : r.Quiet :=
  h.mono fun _ _ => trivial

theorem after (hr : r.Quiet) (hf : ∀ a, (f a).Tells Q) : (r >>= f).Tells Q :=
  hr.bind fun a _ => hf a

theorem ite {p : Prop} [Decidable p] (h₁ : r₁.Tells P) (h₂ : r₂.Tells P) : (if p then r₁ else r₂).Tells P := by
  split
  · exact h₁
  · exact h₂

end Reader.Tells

open Graphql.Grammar.Reader (ok_of_bind Tells Quiet)
open Definition (IsNamedPlainly isNamedPlainly_of_none isNamedPlainly_of_some)

theorem inert_describe (h : ∀ l ∈ ls, Graphql.IsPlain l.spelling.toList) : Inert (describe ls) := by
  cases ls
  case nil        => decide +kernel
  case cons l ls => exact Lexeme.inert_label (h l List.mem_cons_self)

theorem tells_failAt {left : Nat} {fault : Fault} (h : fault.IsInert) : (failAt left fault : Reader α).Tells P where
  ok _ _ _ _ hr := by cases hr
  error _ _ _ _ hr := by cases hr; exact h

theorem tells_unexpected : (unexpected : Reader α).Tells P where
  ok _ _ _ _ hr := by cases hr
  error _ _ _ hc hr := by cases hr; exact List.forall_mem_singleton.mpr (inert_describe hc)

theorem tells_lexemes : lexemes.Tells fun ls => ∀ l ∈ ls, Graphql.IsPlain l.spelling.toList where
  ok _ _ _ hc hr := by cases hr; exact ⟨hc, hc⟩
  error _ _ _ _ hr := by cases hr

theorem quiet_peekIs {k : TokenKind} : (peekIs k).Quiet where
  ok _ _ _ hc hr := by cases hr; exact ⟨trivial, hc⟩
  error _ _ _ _ hr := by cases hr

theorem quiet_advance : advance.Quiet where
  ok c u c' hc hr := by
    rw [(of_advance hr).left]
    exact ⟨trivial, fun l hl => hc l (List.mem_of_mem_tail hl)⟩
  error c left fault hc hr := by
    unfold advance at hr
    split at hr
    case h_1 => cases hr
    case h_2 => split at hr <;> cases hr

theorem tells_lookahead : lookahead.Tells fun ls => ∀ l ∈ ls, Graphql.IsPlain l.spelling.toList where
  ok c ls c' hc hr := by
    obtain ⟨rfl, rfl⟩ := of_lookahead hr
    exact ⟨fun l hl => hc l (List.mem_of_mem_drop hl), hc⟩
  error c left fault hc hr := by
    unfold lookahead at hr
    dsimp only at hr
    split at hr <;> cases hr

theorem tells_expect {k : TokenKind} : (expect k).Tells fun l => Graphql.IsPlain l.spelling.toList := by
  have expected {s : String} (hs : Inert s) : (Fault.expected k.label s).IsInert :=
    List.forall_mem_cons.mpr ⟨k.inert_label, List.forall_mem_singleton.mpr hs⟩
  refine tells_lexemes.bind fun ls hl => ?_
  split
  case h_1 l rest =>
    have hp := hl l List.mem_cons_self
    exact .ite (quiet_advance.after fun _ => .pure hp) (tells_failAt (expected (Lexeme.inert_label hp)))
  case h_2 => exact tells_failAt (expected (inert_describe (by simp)))

theorem quiet_optional {k : TokenKind} : (Grammar.optional k).Quiet :=
  quiet_peekIs.after fun _ => .ite (quiet_advance.after fun _ => .pure trivial) (.pure trivial)

theorem quiet_optionalKeyword {word : String} : (optionalKeyword word).Quiet :=
  tells_lexemes.quiet.after fun _ => .ite (quiet_advance.after fun _ => .pure trivial) (.pure trivial)

theorem quiet_expectKeyword {word : String} (hw : '[' ∉ word.toList) : (expectKeyword word).Quiet := by
  refine quiet_optionalKeyword.after fun _ => .ite (.pure trivial) (tells_lexemes.bind fun ls hl => tells_failAt ?_)
  refine List.forall_mem_cons.mpr ⟨.of_not_mem ?_, List.forall_mem_singleton.mpr (inert_describe hl)⟩
  simpa [toString] using hw

theorem tells_name : name.Tells fun n => '[' ∉ n.toList :=
  tells_expect.bind fun _ hl => .pure hl.bracket

theorem quiet_name : name.Quiet :=
  tells_name.quiet

theorem quiet_expect {k : TokenKind} : (expect k).Quiet :=
  tells_expect.quiet

theorem quiet_itemsUntil {closing : TokenKind} (h : item.Quiet) : (itemsUntil closing item fuel).Quiet := by
  induction fuel
  case zero => exact tells_unexpected
  case succ fuel hi =>
    exact quiet_optional.after fun _ => .ite (.pure trivial) (h.after fun _ => hi.after fun _ => .pure trivial)

theorem quiet_any {opening closing : TokenKind} (h : item.Quiet) :
    (Grammar.any fuel opening closing item).Quiet :=
  quiet_expect.after fun _ => quiet_itemsUntil h

theorem quiet_many {opening closing : TokenKind} (h : item.Quiet) : (many fuel opening closing item).Quiet :=
  quiet_expect.after fun _ => h.after fun _ => (quiet_itemsUntil h).after fun _ => .pure trivial

theorem quiet_optionalMany {opening closing : TokenKind} (h : item.Quiet) :
    (optionalMany fuel opening closing item).Quiet :=
  quiet_peekIs.after fun _ => .ite (quiet_many h) (.pure trivial)

theorem quiet_separated_go {mark : TokenKind} (h : item.Quiet) : (separated.go mark item fuel).Quiet := by
  induction fuel
  case zero => exact tells_unexpected
  case succ fuel hi =>
    exact h.after fun _ => quiet_optional.after fun _ => .ite (hi.after fun _ => .pure trivial) (.pure trivial)

theorem quiet_separated {mark : TokenKind} (h : item.Quiet) : (separated mark item fuel).Quiet :=
  quiet_optional.after fun _ => quiet_separated_go h

theorem tells_nested (h : r.Tells P) : (nested r).Tells P where
  ok c a c' hc hr := by
    have deeper : Cursor.IsPlain { c with depth := c.depth + 1 } := hc
    unfold nested at hr
    split at hr
    case isTrue => cases hr
    case isFalse =>
      split at hr
      case h_2    => cases hr
      case h_1 h₁ =>
        cases hr
        have ⟨ha, hc'⟩ := h.ok deeper h₁
        exact ⟨ha, hc'⟩
  error c left fault hc hr := by
    have deeper : Cursor.IsPlain { c with depth := c.depth + 1 } := hc
    unfold nested at hr
    split at hr
    case isTrue =>
      cases hr
      exact Lexer.isInert_of_quotes_nil rfl
    case isFalse =>
      split at hr
      case h_1    => cases hr
      case h_2 h₁ =>
        cases hr
        exact h.error deeper h₁

theorem quiet_variable' : variable'.Quiet :=
  quiet_expect.after fun _ => quiet_name

theorem quiet_value {constant : Bool} : (value constant fuel).Quiet := by
  induction fuel
  case zero => exact tells_unexpected
  case succ fuel hi =>
    refine tells_lexemes.bind fun here hh => ?_
    split
    case _ => exact tells_unexpected
    case _ l rest =>
      have refused : (Fault.unexpected l.label).IsInert :=
        List.forall_mem_singleton.mpr (Lexeme.inert_label (hh l List.mem_cons_self))
      split
      case _ => exact (tells_nested <| quiet_any hi).after fun _ => .pure trivial
      case _ =>
        refine (tells_nested <| quiet_any ?_).after fun _ => .pure trivial
        exact quiet_name.after fun _ => quiet_expect.after fun _ => hi.after fun _ => .pure trivial
      case _ => exact quiet_advance.after fun _ => .pure trivial
      case _ => exact quiet_advance.after fun _ => .pure trivial
      case _ => exact quiet_advance.after fun _ => .pure trivial
      case _ => exact quiet_advance.after fun _ => .pure trivial
      case _ => exact quiet_advance.after fun _ => .pure trivial
      case _ =>
        refine .ite (quiet_advance.after fun _ => tells_lexemes.bind fun ls hl => ?_) ?_
        · split
          case _ n _ =>
            have hn := (hl n List.mem_cons_self).bracket
            exact .ite (tells_failAt (List.forall_mem_singleton.mpr (.of_not_mem hn))) (tells_failAt refused)
          case _ => exact tells_failAt refused
        · exact quiet_variable'.after fun _ => .pure trivial
      case _ => exact tells_unexpected

theorem quiet_arguments {constant : Bool} : (arguments constant fuel).Quiet :=
  quiet_optionalMany <| quiet_name.after fun _ => quiet_expect.after fun _ => quiet_value.after fun _ => .pure trivial

theorem quiet_directives {constant : Bool} : (directives constant fuel n).Quiet := by
  induction n
  case zero => exact tells_unexpected
  case succ n hi =>
    exact quiet_optional.after fun _ => .ite
      (quiet_name.after fun _ => quiet_arguments.after fun _ => hi.after fun _ => .pure trivial) (.pure trivial)

theorem quiet_typeReference : (typeReference fuel).Quiet := by
  induction fuel
  case zero => exact tells_unexpected
  case succ fuel hi =>
    have marked (t : TypeReference) : Quiet (do
        if ← Grammar.optional .bang then return TypeReference.nonNull t else return t) :=
      quiet_optional.after fun _ => .ite (.pure trivial) (.pure trivial)
    refine quiet_optional.after fun _ => .ite ?_ ?_
    · exact (tells_nested hi).after fun _ => quiet_expect.after fun _ => .after (.pure trivial) marked
    · exact quiet_name.after fun _ => .after (.pure trivial) marked

theorem tells_fragmentName : fragmentName.Tells fun n => '[' ∉ n.toList :=
  tells_lexemes.quiet.after fun _ => .ite (.after tells_unexpected fun _ => tells_name) tells_name

mutual

theorem quiet_selection : (fuel : Nat) → (selection fuel).Quiet
  | 0 => tells_unexpected
  | fuel + 1 => by
    have hs := quiet_selections fuel
    refine quiet_optional.after fun _ => .ite ?spread ?field
    case spread =>
      refine quiet_optionalKeyword.after fun conditional => quiet_peekIs.after fun _ => .ite ?_ ?_
      · exact tells_fragmentName.quiet.after fun _ => quiet_directives.after fun _ => .pure trivial
      · refine .ite (quiet_name.after fun _ => .after (.pure trivial) fun _ => ?_) (.after (.pure trivial) fun _ => ?_)
        all_goals exact quiet_directives.after fun _ => hs.after fun _ => .pure trivial
    case field =>
      refine quiet_name.after fun _ => quiet_optional.after fun _ => .ite
        (quiet_name.after fun _ => .after (.pure trivial) fun _ => ?_) (.after (.pure trivial) fun _ => ?_)
      all_goals
        refine quiet_arguments.after fun _ => quiet_directives.after fun _ => quiet_peekIs.after fun _ => ?_
        exact .ite (hs.after fun _ => .after (.pure trivial) fun _ => .pure trivial)
          (.after (.pure trivial) fun _ => .pure trivial)

theorem quiet_selections : (fuel : Nat) → (selections fuel).Quiet
  | 0 => tells_unexpected
  | fuel + 1 => tells_nested <| quiet_any <| quiet_selection fuel

end

theorem quiet_description : description.Quiet := by
  refine tells_lexemes.quiet.after fun _ => ?_
  split
  case _ => exact .ite (quiet_advance.after fun _ => .pure trivial) (.pure trivial)
  case _ => exact .pure trivial

theorem quiet_operationKind : operationKind.Quiet := by
  refine tells_lexemes.quiet.after fun _ => tells_expect.bind fun l hl => ?_
  split
  case _ => exact .pure trivial
  case _ => exact tells_failAt (List.forall_mem_singleton.mpr (Lexeme.inert_label hl))

theorem quiet_defaultValue : (defaultValue fuel).Quiet :=
  quiet_optional.after fun _ => .ite (quiet_value.after fun _ => .pure trivial) (.pure trivial)

theorem quiet_variableDefinition : (variableDefinition fuel).Quiet :=
  quiet_description.after fun _ => quiet_variable'.after fun _ => quiet_expect.after fun _ =>
    quiet_typeReference.after fun _ => quiet_defaultValue.after fun _ => quiet_directives.after fun _ => .pure trivial

theorem tells_operation : (operation fuel).Tells IsNamedPlainly := by
  have named {d : Option Description} {k : OperationKind} {o : Option String} (ho : ∀ n ∈ o, '[' ∉ n.toList) :
      Tells IsNamedPlainly (do
        let vs ← optionalMany fuel .parenL .parenR (variableDefinition fuel)
        let ds ← directives false fuel fuel
        return .operation d k o vs ds (← selections fuel)) :=
    (quiet_optionalMany quiet_variableDefinition).after fun _ => quiet_directives.after fun _ =>
      (quiet_selections fuel).after fun _ => .pure ho
  refine quiet_peekIs.after fun _ => .ite ((quiet_selections fuel).after fun _ => .pure (isNamedPlainly_of_none rfl)) ?_
  refine quiet_description.after fun _ => quiet_operationKind.after fun _ => quiet_peekIs.after fun _ => .ite ?_ ?_
  · exact tells_name.bind fun n hn => Tells.bind (P := fun o => ∀ n ∈ o, '[' ∉ n.toList)
      (.pure (by simpa using hn)) fun o ho => named ho
  · exact Tells.bind (P := fun o => ∀ n ∈ o, '[' ∉ n.toList) (.pure (by simp)) fun o ho => named ho

theorem tells_fragment : (fragment fuel).Tells IsNamedPlainly :=
  quiet_description.after fun _ => (quiet_expectKeyword (by simp)).after fun _ => tells_fragmentName.bind fun _ hn =>
    (quiet_expectKeyword (by simp)).after fun _ => quiet_name.after fun _ => quiet_directives.after fun _ =>
      (quiet_selections fuel).after fun _ => .pure (isNamedPlainly_of_some rfl hn)

theorem quiet_inputDefinition : (inputDefinition fuel).Quiet :=
  quiet_description.after fun _ => quiet_name.after fun _ => quiet_expect.after fun _ =>
    quiet_typeReference.after fun _ => quiet_defaultValue.after fun _ => quiet_directives.after fun _ => .pure trivial

theorem quiet_fieldDefinition : (fieldDefinition fuel).Quiet :=
  quiet_description.after fun _ => quiet_name.after fun _ => (quiet_optionalMany quiet_inputDefinition).after fun _ =>
    quiet_expect.after fun _ => quiet_typeReference.after fun _ => quiet_directives.after fun _ => .pure trivial

theorem quiet_enumValueDefinition : (enumValueDefinition fuel).Quiet := by
  refine quiet_description.after fun _ => tells_lexemes.bind fun ls hl => .ite (.after ?reserved fun _ => ?_) ?_
  case reserved => exact tells_failAt (List.forall_mem_singleton.mpr (inert_describe hl))
  all_goals exact quiet_name.after fun _ => quiet_directives.after fun _ => .pure trivial

theorem quiet_rootOperation : rootOperation.Quiet :=
  quiet_operationKind.after fun _ => quiet_expect.after fun _ => quiet_name.after fun _ => .pure trivial

theorem quiet_interfaces : (interfaces fuel).Quiet :=
  quiet_optionalKeyword.after fun _ => .ite (quiet_separated quiet_name) (.pure trivial)

theorem quiet_typeBody {keyword : String} : (typeBody fuel keyword).Quiet := by
  have fields : (optionalMany fuel .braceL .braceR (fieldDefinition fuel)).Quiet :=
    quiet_optionalMany quiet_fieldDefinition
  unfold typeBody
  split
  case _ =>
    exact quiet_interfaces.after fun _ => quiet_directives.after fun _ => fields.after fun _ => .pure trivial
  case _ =>
    exact quiet_interfaces.after fun _ => quiet_directives.after fun _ => fields.after fun _ => .pure trivial
  case _ =>
    exact quiet_directives.after fun _ => quiet_optional.after fun _ => .ite
      ((quiet_separated quiet_name).after fun _ => .pure trivial) (.after (.pure trivial) fun _ => .pure trivial)
  case _ =>
    exact quiet_directives.after fun _ => (quiet_optionalMany quiet_enumValueDefinition).after fun _ => .pure trivial
  case _ =>
    exact quiet_directives.after fun _ => (quiet_optionalMany quiet_inputDefinition).after fun _ => .pure trivial
  case _ => exact quiet_directives.after fun _ => .pure trivial

theorem tells_typeDefinition {keyword : String} (hk : '[' ∉ keyword.toList) :
    (typeDefinition fuel keyword).Tells IsNamedPlainly :=
  quiet_description.after fun _ => (quiet_expectKeyword hk).after fun _ => tells_name.bind fun _ hn =>
    quiet_typeBody.after fun _ => .pure (isNamedPlainly_of_some rfl hn)

theorem tells_schema : (schema fuel).Tells IsNamedPlainly :=
  quiet_description.after fun _ => (quiet_expectKeyword (by simp)).after fun _ => quiet_directives.after fun _ =>
    (quiet_many quiet_rootOperation).after fun _ => .pure (isNamedPlainly_of_none rfl)

theorem quiet_directiveLocation : directiveLocation.Quiet :=
  tells_lexemes.bind fun _ hl => quiet_name.after fun _ => .ite (.pure trivial)
    (tells_failAt (List.forall_mem_singleton.mpr (inert_describe hl)))

theorem tells_directive : (directive fuel).Tells IsNamedPlainly :=
  quiet_description.after fun _ => (quiet_expectKeyword (by simp)).after fun _ => quiet_expect.after fun _ =>
    tells_name.bind fun _ hn => (quiet_optionalMany quiet_inputDefinition).after fun _ =>
      quiet_directives.after fun _ => quiet_optionalKeyword.after fun _ =>
        (quiet_expectKeyword (by simp)).after fun _ => (quiet_separated quiet_directiveLocation).after fun _ =>
          .pure (isNamedPlainly_of_some rfl hn)

theorem tells_extension : (extension fuel).Tells IsNamedPlainly := by
  refine tells_lookahead.bind fun ahead ha => ?_
  split
  case _ => exact tells_failAt (List.forall_mem_singleton.mpr (inert_describe (by simp)))
  case _ l hl =>
    have hp := ha l (List.mem_of_mem_head? hl)
    refine .ite ?schema (.ite ?directive (.ite ?type (tells_failAt ?other)))
    case schema =>
      refine quiet_advance.after fun _ => quiet_advance.after fun _ => quiet_directives.after fun _ =>
        (quiet_optionalMany quiet_rootOperation).after fun _ => .ite (.after tells_unexpected fun _ => ?_) ?_
      all_goals exact .pure (isNamedPlainly_of_none rfl)
    case directive =>
      refine quiet_advance.after fun _ => quiet_advance.after fun _ => quiet_expect.after fun _ =>
        tells_name.bind fun _ hn => quiet_directives.after fun _ => .ite (.after tells_unexpected fun _ => ?_) ?_
      all_goals exact .pure (isNamedPlainly_of_some rfl hn)
    case type =>
      refine quiet_advance.after fun _ => quiet_advance.after fun _ => tells_name.bind fun _ hn =>
        quiet_typeBody.after fun _ => .ite (.after tells_unexpected fun _ => ?_) ?_
      all_goals exact .pure (isNamedPlainly_of_some rfl hn)
    case other => exact List.forall_mem_singleton.mpr (Lexeme.inert_label hp)

theorem tells_definition : (definition fuel).Tells IsNamedPlainly := by
  have said {left : Nat} {fault : Fault} (hq : fault.quotes = []) :
      (failAt left fault : Reader Definition).Tells IsNamedPlainly :=
    tells_failAt (Lexer.isInert_of_quotes_nil hq)
  refine tells_lexemes.bind fun here hh => .ite (tells_lookahead.bind fun ahead ha => ?_)
    (Tells.bind (P := fun ls => ∀ l ∈ ls, Graphql.IsPlain l.spelling.toList) (.pure hh) fun ahead ha => ?_)
  all_goals
    dsimp only
    split
    case _ => exact tells_failAt (List.forall_mem_singleton.mpr (inert_describe (by simp)))
    case _ l hl =>
      have hp := ha l (List.mem_of_mem_head? hl)
      have other {left : Nat} : (failAt left (.unexpected l.label) : Reader Definition).Tells IsNamedPlainly :=
        tells_failAt (List.forall_mem_singleton.mpr (Lexeme.inert_label hp))
      refine .ite (.ite (said rfl) tells_operation) (.ite ?_ other)
      exact .ite tells_schema <| .ite (tells_typeDefinition hp.bracket) <| .ite tells_directive <|
        .ite tells_operation <| .ite tells_fragment <| .ite (said rfl) <| .ite tells_extension other

theorem tells_document : (document fuel n).Tells fun ds => ∀ d ∈ ds, IsNamedPlainly d.1 := by
  induction n
  case zero => exact tells_unexpected
  case succ n hi =>
    refine tells_lexemes.quiet.after fun here => tells_definition.bind fun d hd => tells_lexemes.quiet.after fun _ => ?_
    exact .ite (.pure (List.forall_mem_singleton.mpr hd)) (hi.bind fun ds hs => .pure (List.forall_mem_cons.mpr ⟨hd, hs⟩))

end Grammar

namespace SyntaxError

variable {c : Char} {s : String} {body : String} {rows : List (String × String)} {cs l : List Char} {fuel n : Nat}

theorem not_mem_padLeft (h : '[' ∉ s.toList) : '[' ∉ (padLeft n s).toList := by
  simpa [padLeft, List.mem_replicate] using h

theorem not_mem_labelled (h : ∀ r ∈ rows, '[' ∉ r.1.toList ∧ '[' ∉ r.2.toList) : '[' ∉ (labelled rows).toList := by
  unfold labelled
  dsimp only
  rw [String.toList_intercalate]
  intro hm
  rcases mem_of_mem_intercalate hm with hm | ⟨cs, hcs, hm⟩
  case inl => simp at hm
  case inr =>
    obtain ⟨s, hs, rfl⟩ := List.mem_map.mp hcs
    obtain ⟨⟨label, line⟩, hr, rfl⟩ := List.mem_map.mp hs
    have ⟨hl, hn⟩ := h _ hr
    refine absurd hm (Markup.not_mem_append (not_mem_padLeft hl) ?_)
    split
    case isTrue  => simp
    case isFalse => simpa using hn

theorem mem_of_mem_pieces (h : l ∈ pieces fuel cs) (hc : c ∈ l) : c ∈ cs := by
  fun_induction pieces fuel cs <;> grind

theorem not_mem_row {label : String} {line : Option String} (hl : '[' ∉ label.toList)
    (hs : ∀ s ∈ line, '[' ∉ s.toList) :
    ∀ r ∈ (line.map (label, ·)).toList, '[' ∉ r.1.toList ∧ '[' ∉ r.2.toList := by
  intro r hr
  obtain ⟨s, hm, rfl⟩ := Option.mem_map.mp (Option.mem_toList.mp hr)
  exact ⟨hl, hs s hm⟩

theorem not_mem_pieces (h : '[' ∉ cs) : ∀ s ∈ (pieces fuel cs).map String.ofList, '[' ∉ s.toList := by
  intro s hs
  obtain ⟨l, hl, rfl⟩ := List.mem_map.mp hs
  rw [String.toList_ofList]
  exact fun hm => h (mem_of_mem_pieces hl hm)

theorem not_mem_line? (h : '[' ∉ body.toList) (i : Nat) :
    ∀ s ∈ (BlockText.lines body.toList)[i]?.map String.ofList, '[' ∉ s.toList := by
  intro s hs
  obtain ⟨l, hl, rfl⟩ := Option.mem_map.mp hs
  rw [String.toList_ofList]
  exact fun hm => h (mem_of_mem_lines (List.mem_of_getElem? hl) hm)

theorem not_mem_lineD (h : '[' ∉ body.toList) (i : Nat) : '[' ∉ (BlockText.lines body.toList).getD i [] := by
  rw [List.getD_eq_getElem?_getD]
  cases hl : (BlockText.lines body.toList)[i]?
  case none   => simp
  case some l => exact fun hm => h (mem_of_mem_lines (List.mem_of_getElem? hl) hm)

theorem not_mem_excerpt (h : '[' ∉ body.toList) : '[' ∉ (excerpt n body).toList := by
  have number (m : Nat) : '[' ∉ (s!"{m} |").toList :=
    Markup.not_mem_append (Markup.not_mem_toString m) (by simp [toString])
  have bar : '[' ∉ "|".toList := by simp
  have caret (m : Nat) : '[' ∉ (padLeft m "^").toList := not_mem_padLeft (by simp)
  unfold excerpt
  generalize SyntaxError.position n body.toList = p
  obtain ⟨line, column⟩ := p
  dsimp only
  have here := not_mem_lineD h (line - 1)
  generalize (BlockText.lines body.toList).getD (line - 1) [] = cs at here
  refine Markup.not_mem_append ?place (not_mem_labelled ?rows)
  case place =>
    refine Markup.not_mem_append (Markup.not_mem_append (Markup.not_mem_append (Markup.not_mem_append ?_ ?_) ?_) ?_) ?_
    · simp [toString]
    · exact Markup.not_mem_toString line
    · simp [toString]
    · exact Markup.not_mem_toString column.toNat
    · simp [toString]
  case rows =>
    split
    case isTrue =>
      -- A very long line is shown in pieces.
      have inPiece : ∀ s ∈ (pieces cs.length cs).map String.ofList, '[' ∉ s.toList := not_mem_pieces here
      generalize (pieces cs.length cs).map String.ofList = parts at inPiece
      have first : '[' ∉ (parts.headD "").toList := by
        cases parts
        case nil       => simp
        case cons s ss => exact inPiece s List.mem_cons_self
      simp only [List.forall_mem_cons, List.forall_mem_append]
      refine ⟨⟨⟨⟨number line, first⟩, fun r hr => ?_⟩, ⟨bar, caret _⟩, by simp⟩, not_mem_row bar fun s hs => ?_⟩
      · obtain ⟨s, hs, rfl⟩ := List.mem_map.mp hr
        exact ⟨bar, inPiece s (List.mem_of_mem_drop (List.mem_of_mem_take hs))⟩
      · exact inPiece s (List.mem_of_getElem? hs)
    case isFalse =>
      simp only [List.forall_mem_cons, List.forall_mem_append]
      refine ⟨⟨?_, ⟨number line, by rwa [String.toList_ofList]⟩, ⟨bar, caret _⟩, by simp⟩, ?_⟩
      · split
        case isTrue  => exact not_mem_row (number _) (not_mem_line? h _)
        case isFalse => simp
      · exact not_mem_row (number _) (not_mem_line? h _)

end SyntaxError

variable {text : String} {e : SyntaxError} {ds : List Placed}

theorem SyntaxError.inert_message (h : e.fault.IsInert) (hb : '[' ∉ text.toList) : Inert (e.message text) :=
  (((Inert.of_not_mem (by simp)).append h.message).append (.of_not_mem (by simp))).append
    (.of_not_mem (not_mem_excerpt hb))

theorem isPlain_tokens (h : IsPlain text.toList) :
    ∀ l ∈ (TokenStream.ofString text).tokens.map (·.toLexeme), IsPlain l.spelling.toList := by
  intro l hl
  obtain ⟨t, ht, rfl⟩ := List.mem_map.mp hl
  exact h.of_infix (Lexer.isInfix_of_mem_scan ht)

theorem definitionsOf_tells {ls : List Lexeme} {broken : Bool} (h : ∀ l ∈ ls, IsPlain l.spelling.toList) :
    (∀ ds, definitionsOf ls broken = .ok ds → ∀ d ∈ ds, d.1.IsNamedPlainly) ∧
      ∀ left f, definitionsOf ls broken = .error (.fault left f) → f.IsInert := by
  have hc : Grammar.Cursor.IsPlain ⟨ls, broken, 0⟩ := h
  unfold definitionsOf
  split
  case isTrue => exact ⟨by simp, by simp⟩
  case isFalse =>
    split
    case h_1 hr =>
      refine ⟨fun ds hd => ?_, by simp⟩
      cases hd
      exact (Grammar.tells_document.ok hc hr).left
    case h_2 hr =>
      refine ⟨by simp, fun left f hf => ?_⟩
      cases hf
      exact Grammar.tells_document.error hc hr

theorem isInert_of_parse (h : IsPlain text.toList) (he : parse text = .error e) : e.fault.IsInert := by
  unfold parse at he
  dsimp only at he
  split at he
  case h_1 => cases he
  case h_2 =>
    cases he
    cases hf : (TokenStream.ofString text).failure
    case none   => exact Lexer.isInert_of_quotes_nil rfl
    case some e => exact Lexer.isInert_scan hf h.bracket
  case h_3 hd =>
    cases he
    exact (definitionsOf_tells (isPlain_tokens h)).right _ _ hd

theorem isNamedPlainly_of_parse (h : IsPlain text.toList) (hp : parse text = .ok ds) :
    ∀ p ∈ ds, p.definition.IsNamedPlainly := by
  unfold parse at hp
  dsimp only at hp
  split at hp
  case h_2 => cases hp
  case h_3 => cases hp
  case h_1 hd =>
    cases hp
    intro p hm
    obtain ⟨d, hd', rfl⟩ := List.mem_map.mp hm
    exact (definitionsOf_tells (isPlain_tokens h)).left _ hd d hd'

end QueryGlean.Graphql
