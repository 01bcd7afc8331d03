import Mathlib.Data.List.Forall2
import QueryGlean.Proofs.Graphql.Acceptance

namespace QueryGlean.Graphql

open Outline (mark)

variable {s t sep before after : String} {os : List Outline} {opening closing : TokenKind} {c : Char} {cs : List Char}

namespace Print

theorem not_runsOn_of_isIgnored (h : Lexer.isIgnored c) : ¬Lexer.runsOn c := by
  simp only [Lexer.isIgnored, Bool.or_eq_true, beq_iff_eq] at h
  rcases h with ((((rfl | rfl) | rfl) | rfl) | rfl) | rfl <;> decide

structure IsGap (sep : String) : Prop where
  nonempty : sep.toList ≠ []
  ignored  : ∀ c ∈ sep.toList, Lexer.isIgnored c

theorem IsGap.stops (h : IsGap sep) : Stops Lexer.runsOn (sep.toList ++ cs) := by
  have ⟨c, cs', hc⟩ := List.exists_cons_of_ne_nil h.nonempty
  rw [hc, List.cons_append]
  exact stops_cons.mpr (not_runsOn_of_isIgnored (h.ignored c (hc ▸ List.mem_cons_self)))

theorem isGap_blank : IsGap " " := ⟨by decide, List.all_eq_true.mp (by decide)⟩
theorem isGap_break : IsGap "\n" := ⟨by decide, List.all_eq_true.mp (by decide)⟩
theorem isGap_comma : IsGap ", " := ⟨by decide, List.all_eq_true.mp (by decide)⟩

theorem eq_nil_of_isEmpty (h : Writes s.toList os) (hs : s.isEmpty) : os = [] := by
  rw [String.isEmpty_iff.mp hs] at h
  exact h.eq .nil

theorem writes_join (hs : IsGap sep) {ss : List String} {oss : List (List Outline)}
    (h : List.Forall₂ (fun s os => Writes s.toList os) ss oss) : Writes (join sep ss).toList oss.flatten := by
  unfold join
  induction h
  case nil => exact .nil
  case cons s os ss oss hw _ hi =>
    rw [List.filter_cons, List.flatten_cons]
    split
    case isFalse he =>
      rw [eq_nil_of_isEmpty hw (by simpa using he)]
      exact hi
    case isTrue =>
      by_cases hn : ss.filter (! ·.isEmpty) = []
      case pos =>
        rw [hn] at hi ⊢
        rw [hi.eq .nil, List.append_nil, String.intercalate_singleton]
        exact hw
      case neg =>
        rw [String.intercalate_cons_of_ne_nil hn, String.toList_append, String.toList_append, List.append_assoc]
        exact hw.append (hi.blanks hs.ignored) (.inr hs.stops)

theorem writes_map {α : Type} {f : α → String} {out : α → List Outline} {xs : List α} (hs : IsGap sep)
    (h : ∀ x ∈ xs, Writes (f x).toList (out x)) : Writes (join sep (xs.map f)).toList (xs.flatMap out) := by
  refine writes_join hs (List.forall₂_map_left_iff.mpr (List.forall₂_map_right_iff.mpr (List.forall₂_same.mpr h)))

theorem writes_indent (h : Writes s.toList os) : Writes (indent s).toList os := by
  have hi : Writes (String.ofList (Writes.breaks s.toList)).toList os := by
    rw [String.toList_ofList]
    exact h.indented
  change Writes (wrap "  " (String.ofList (Writes.breaks s.toList)) "").toList os
  unfold wrap
  split
  case isTrue he => exact eq_nil_of_isEmpty hi he ▸ .nil
  case isFalse =>
    rw [String.append_empty, String.toList_append]
    exact hi.blanks (List.all_eq_true.mp (by decide))

theorem writes_between (hb : Writes before.toList [mark opening]) (hp : opening.isPunctuator) (h : Writes s.toList os)
    (ha : Writes after.toList [mark closing]) (hs : Stops Lexer.runsOn after.toList) :
    Writes (before ++ s ++ after).toList (mark opening :: (os ++ [mark closing])) := by
  rw [String.append_assoc, String.toList_append, String.toList_append]
  exact hb.append (h.append ha (.inr hs)) (.inl fun o ho => List.mem_singleton.mp ho ▸ hp)

theorem wrap_of_ne_nil (h : Writes s.toList os) (hn : os ≠ []) : wrap before s after = before ++ s ++ after :=
  if_neg (mt (eq_nil_of_isEmpty h) hn)

theorem values_eq (vs : List Value) : values vs = vs.map value := by
  induction vs
  case nil => rfl
  case cons v vs hi => rw [values, hi, List.map_cons]

def field (f : String × Value) : String :=
  f.1 ++ ": " ++ value f.2

theorem fields_eq (fs : List (String × Value)) : fields fs = fs.map field := by
  induction fs
  case nil => rfl
  case cons f fs hi => rw [fields, hi, List.map_cons, field]

theorem writes_entry {n : String} (hn : isName n) (h : Writes s.toList os) :
    Writes (n ++ ": " ++ s).toList (.name n :: mark .colon :: os) := by
  rw [String.append_assoc, String.toList_append, String.toList_append]
  exact (Writes.named hn).append (.marked rfl (.blank rfl h)) (.inr (stops_cons.mpr (by decide)))

theorem writes_value {constant : Bool} {room : Nat} {v : Value} (h : v.Valid constant room) :
    Writes (value v).toList v.outline := by
  induction h
  case «variable» hn =>
    rw [value, String.toList_append]
    exact .marked rfl (.named hn)
  case int hs => exact .number hs
  case float hs => exact .number hs
  case string t b _ =>
    cases b
    case false => exact .quoted t
    case true  => exact .block t false
  case boolean b _ => cases b <;> exact .named (by decide)
  case null => exact .named (by decide)
  case enum hn => exact .named hn
  -- Lists and objects are written on one line, or on several if that would be too long.
  case list vs _ _ hi =>
    rw [value, Value.outline, values_eq, Value.outlines_eq]
    split
    case isTrue =>
      exact writes_between (.marked rfl (.blank rfl .nil)) rfl (writes_indent (writes_map isGap_break hi))
        (.blank rfl (.marked rfl .nil)) (stops_cons.mpr (by decide))
    case isFalse =>
      exact writes_between (.marked rfl .nil) rfl (writes_map isGap_comma hi)
        (.marked rfl .nil) (stops_cons.mpr (by decide))
  case object fs _ hn _ hi =>
    rw [value, Value.outline, fields_eq, Value.fieldOutlines_eq]
    have hf : ∀ f ∈ fs, Writes (field f).toList (Value.fieldOutline f) := fun f hf => writes_entry (hn f hf) (hi f hf)
    split
    case isTrue =>
      exact writes_between (.marked rfl (.blank rfl .nil)) rfl (writes_indent (writes_map isGap_break hf))
        (.blank rfl (.marked rfl .nil)) (stops_cons.mpr (by decide))
    case isFalse =>
      exact writes_between (.marked rfl (.blank rfl .nil)) rfl (writes_map isGap_comma hf)
        (.blank rfl (.marked rfl .nil)) (stops_cons.mpr (by decide))

theorem stops_wrap (hb : ∃ c cs, before.toList = c :: cs ∧ ¬Lexer.runsOn c) :
    Stops Lexer.runsOn (wrap before s after).toList := by
  have ⟨c, cs, hc, hr⟩ := hb
  unfold wrap
  split
  case isTrue  => exact stops_nil
  case isFalse =>
    rw [String.append_assoc, String.toList_append, hc]
    exact stops_cons.mpr hr

theorem writes_enclosed (h : Writes s.toList os) (hn : os = [] → s = "") (hb : Writes before.toList [mark .parenL])
    (ha : Writes after.toList [mark .parenR]) (hs : Stops Lexer.runsOn after.toList) :
    Writes (wrap before s after).toList (enclosed .parenL .parenR os) := by
  unfold enclosed
  split
  case isTrue ho => rw [hn ho]; exact .nil
  case isFalse ho =>
    rw [wrap_of_ne_nil h ho]
    exact writes_between hb rfl h ha hs

theorem writes_arguments {constant : Bool} {room : Nat} {as : List Argument} (h : ∀ a ∈ as, a.Valid constant room) :
    Writes (wrap "(" (join ", " (as.map argument)) ")").toList (argumentsOutline as) ∧
      Writes (wrap "(\n" (indent (join "\n" (as.map argument))) "\n)").toList (argumentsOutline as) := by
  have hw : ∀ a ∈ as, Writes (argument a).toList a.outline := fun a ha =>
    writes_entry (h a ha).name (writes_value (h a ha).value)
  have hn {s : String} (hs : as = [] → s = "") (ho : as.flatMap Argument.outline = []) : s = "" := by
    cases as
    case nil => exact hs rfl
    case cons => cases ho
  constructor
  · exact writes_enclosed (writes_map isGap_comma hw) (hn fun h => h ▸ rfl) (.marked rfl .nil) (.marked rfl .nil)
      (stops_cons.mpr (by decide))
  · exact writes_enclosed (writes_indent (writes_map isGap_break hw)) (hn fun h => h ▸ rfl)
      (.marked rfl (.blank rfl .nil)) (.blank rfl (.marked rfl .nil)) (stops_cons.mpr (by decide))

theorem writes_directive {constant : Bool} {room : Nat} {d : Directive} (h : d.Valid constant room) :
    Writes (directive d).toList d.outline := by
  rw [directive, String.append_assoc, String.toList_append, String.toList_append]
  exact .marked rfl ((Writes.named h.name).append (writes_arguments h.arguments).left
    (.inr (stops_wrap ⟨_, _, rfl, by decide⟩)))

theorem writes_directives {constant : Bool} {room : Nat} {ds : List Directive} (h : ∀ d ∈ ds, d.Valid constant room) :
    Writes (directives ds).toList (ds.flatMap Directive.outline) :=
  writes_map isGap_blank fun d hd => writes_directive (h d hd)

theorem writes_typeReference {room : Nat} {t : TypeReference} (h : t.Valid room) :
    Writes (typeReference t).toList t.outline := by
  induction h
  case named hn => exact .named hn
  case list hi =>
    exact writes_between (.marked rfl .nil) rfl hi (.marked rfl .nil) (stops_cons.mpr (by decide))
  case nonNull hi =>
    rw [typeReference, TypeReference.outline, String.toList_append]
    exact hi.append (.marked rfl .nil) (.inr (stops_cons.mpr (by decide)))

theorem selections_eq (ss : List Selection) : selections ss = ss.map selection := by
  induction ss
  case nil => rfl
  case cons s ss hi => rw [selections, hi, List.map_cons]

theorem writes_selectionBlock {ss : List Selection} (h : ∀ s ∈ ss, Writes (selection s).toList s.outline) :
    Writes (selectionBlock (selections ss)).toList (mark .braceL :: (Selection.outlines ss ++ [mark .braceR])) := by
  rw [selections_eq, Selection.outlines_eq]
  have hw := writes_indent (writes_map isGap_break h)
  cases ss
  case nil => exact .marked rfl (.marked rfl .nil)
  case cons s ss =>
    have hn : (s :: ss).flatMap Selection.outline ≠ [] := by
      rw [List.flatMap_cons]
      exact mt List.append_eq_nil_iff.mp fun h => (Grammar.starts_selection s).ne_nil h.left
    rw [selectionBlock, if_neg (by simp), block, wrap_of_ne_nil hw hn]
    exact writes_between (.marked rfl (.blank rfl .nil)) rfl hw (.blank rfl (.marked rfl .nil))
      (stops_cons.mpr (by decide))

def called (label : Option String) (n : String) (as : List Argument) : String :=
  let head := wrap "" (label.getD "") ": " ++ n
  let args := as.map argument
  let line := head ++ wrap "(" (join ", " args) ")"
  if maxLine < line.length then head ++ wrap "(\n" (indent (join "\n" args)) "\n)" else line

theorem writes_label {label : Option String} {n : String} (hl : ∀ l, label = some l → isName l) (hn : isName n) :
    Writes (wrap "" (label.getD "") ": " ++ n).toList (Selection.labelOutline label ++ [.name n]) := by
  cases label
  case none => exact .named hn
  case some l =>
    have hl : Writes l.toList [.name l] := .named (hl l rfl)
    rw [Option.getD_some, wrap_of_ne_nil hl (by simp), String.empty_append, String.append_assoc, String.toList_append,
      String.toList_append]
    exact hl.append (.marked rfl (.blank rfl (.named hn))) (.inr (stops_cons.mpr (by decide)))

theorem writes_called {label : Option String} {n : String} {as : List Argument} {room : Nat}
    (hl : ∀ l, label = some l → isName l) (hn : isName n) (ha : ∀ a ∈ as, a.Valid false room) :
    Writes (called label n as).toList (Selection.labelOutline label ++ .name n :: argumentsOutline as) := by
  have hh := writes_label hl hn
  have ⟨h₁, h₂⟩ := writes_arguments ha
  rw [List.append_cons]
  unfold called
  dsimp only
  split
  case isTrue =>
    rw [String.toList_append]
    exact hh.append h₂ (.inr (stops_wrap ⟨_, _, rfl, by decide⟩))
  case isFalse =>
    rw [String.toList_append]
    exact hh.append h₁ (.inr (stops_wrap ⟨_, _, rfl, by decide⟩))

theorem writes_spaced (h : Writes s.toList os) : Writes (wrap " " s "").toList os := by
  unfold wrap
  split
  case isTrue he => exact eq_nil_of_isEmpty h he ▸ .nil
  case isFalse =>
    rw [String.append_empty, String.toList_append]
    exact h.blanks (List.all_eq_true.mp (by decide))

theorem writes_condition {condition : Option String} (h : ∀ c, condition = some c → isName c) :
    Writes (wrap "on " (condition.getD "") "").toList (Selection.conditionOutline condition) := by
  cases condition
  case none => exact .nil
  case some c =>
    have hc : Writes c.toList [.name c] := .named (h c rfl)
    have ho : Writes "on".toList [.name "on"] := .named (by decide)
    rw [Option.getD_some, wrap_of_ne_nil hc (by simp), String.append_empty, String.toList_append]
    exact ho.append (.blank rfl hc) (.inr (stops_cons.mpr (by decide)))

theorem selection_leaf (label : Option String) (n : String) (as : List Argument) (ds : List Directive) :
    selection (.field label n as ds none) = join " " [called label n as, directives ds, ""] := by
  rw [selection, called]

theorem selection_branch (label : Option String) (n : String) (as : List Argument) (ds : List Directive)
    (ss : List Selection) : selection (.field label n as ds (some ss)) =
      join " " [called label n as, directives ds, selectionBlock (selections ss)] := by
  rw [selection, called]

theorem writes_selection {room : Nat} {s : Selection} (h : s.Valid room) : Writes (selection s).toList s.outline := by
  induction h
  case leaf label n as ds _ hl hn ha hd =>
    have hw := writes_join isGap_blank (.cons (writes_called hl hn ha) (.cons (writes_directives hd)
      (.cons (show Writes "".toList [] from .nil) .nil)))
    rw [selection_leaf, Selection.outline]
    simpa only [List.flatten_cons, List.flatten_nil, List.append_nil, List.append_assoc, List.cons_append] using hw
  case branch label n as ds ss _ hl hn ha hd _ hi =>
    have hw := writes_join isGap_blank (.cons (writes_called hl hn ha) (.cons (writes_directives hd)
      (.cons (writes_selectionBlock hi) .nil)))
    rw [selection_branch, Selection.outline]
    simpa only [List.flatten_cons, List.flatten_nil, List.append_nil, List.append_assoc, List.cons_append] using hw
  case spread n ds _ hn _ hd =>
    rw [selection, Selection.outline, String.append_assoc, String.toList_append, String.toList_append]
    exact .spread ((Writes.named hn).append (writes_spaced (writes_directives hd))
      (.inr (stops_wrap ⟨_, _, rfl, by decide⟩)))
  case inline condition ds ss _ hc hd _ hi =>
    have dots : Writes "...".toList [mark .spread] := .spread .nil
    have hw := writes_join isGap_blank (.cons dots (.cons (writes_condition hc) (.cons (writes_directives hd)
      (.cons (writes_selectionBlock hi) .nil))))
    rw [selection, Selection.outline]
    simpa only [List.flatten_cons, List.flatten_nil, List.append_nil, List.append_assoc, List.cons_append,
      List.nil_append] using hw

theorem writes_described (desc : Option Description) (h : Writes s.toList os) :
    Writes (description desc ++ s).toList (Description.outline desc ++ os) := by
  cases desc
  case none => exact h
  case some desc =>
    have hl : ("\n" ++ s).toList = '\n' :: s.toList := String.toList_append
    have hb : Writes ("\n" ++ s).toList os := hl ▸ .blank rfl h
    have hs : Stops Lexer.runsOn ("\n" ++ s).toList := hl ▸ stops_cons.mpr (by decide)
    have ⟨t, b⟩ := desc
    cases b
    case false =>
      rw [description, String.append_assoc, String.toList_append]
      exact (Writes.quoted t).append hb (.inr hs)
    case true =>
      rw [description, String.append_assoc, String.toList_append]
      exact (Writes.block t false).append hb (.inr hs)

theorem writes_default {room : Nat} {v : Option Value} (h : ∀ x, v = some x → x.Valid true room) :
    Writes (default v).toList (Value.defaultOutline v) := by
  cases v
  case none => exact .nil
  case some x =>
    rw [default, String.toList_append]
    exact .marked rfl (.blank rfl (writes_value (h x rfl)))

theorem writes_variableDefinition {room : Nat} {v : VariableDefinition} (h : v.Valid room) :
    Writes (variableDefinition v).toList v.outline := by
  have ht := writes_typeReference h.type
  have hv : Writes ("$" ++ v.name ++ ": " ++ typeReference v.type).toList
      (mark .dollar :: .name v.name :: mark .colon :: v.type.outline) := by
    have ha : "$" ++ v.name ++ ": " ++ typeReference v.type = "$" ++ (v.name ++ ": " ++ typeReference v.type) := by
      simp only [String.append_assoc]
    rw [ha, String.toList_append]
    exact .marked rfl (writes_entry h.name ht)
  have hw := writes_described v.description (writes_join isGap_blank (.cons hv (.cons (writes_default h.default)
    (.cons (writes_directives h.directives) .nil))))
  rw [variableDefinition, VariableDefinition.outline]
  simpa only [List.flatten_cons, List.flatten_nil, List.append_nil, List.append_assoc, List.cons_append] using hw

theorem writes_parameters {room : Nat} {vs : List VariableDefinition} (h : ∀ v ∈ vs, v.Valid room) :
    let s := parenthesized (vs.map variableDefinition) false
    Writes s.toList (enclosed .parenL .parenR (vs.flatMap VariableDefinition.outline)) ∧
      Stops Lexer.runsOn s.toList := by
  have hw : ∀ v ∈ vs, Writes (variableDefinition v).toList v.outline := fun v hv => writes_variableDefinition (h v hv)
  have hn {s : String} (hs : vs = [] → s = "") (ho : vs.flatMap VariableDefinition.outline = []) : s = "" := by
    cases vs
    case nil => exact hs rfl
    case cons v vs =>
      rw [List.flatMap_cons] at ho
      exact absurd (List.append_eq_nil_iff.mp ho).left (Grammar.starts_variableDefinition v).ne_nil
  unfold parenthesized
  dsimp only
  split
  case isTrue =>
    exact ⟨writes_enclosed (writes_map isGap_break hw) (hn fun h => h ▸ rfl) (.marked rfl (.blank rfl .nil))
      (.blank rfl (.marked rfl .nil)) (stops_cons.mpr (by decide)), stops_wrap ⟨_, _, rfl, by decide⟩⟩
  case isFalse =>
    exact ⟨writes_enclosed (writes_map isGap_comma hw) (hn fun h => h ▸ rfl) (.marked rfl .nil)
      (.marked rfl .nil) (stops_cons.mpr (by decide)), stops_wrap ⟨_, _, rfl, by decide⟩⟩

variable {desc : Option Description} {kind : OperationKind} {n : String} {vs : List VariableDefinition}
variable {ds : List Directive} {ss : List Selection}

theorem isName_kind (kind : OperationKind) : isName kind.name := by
  cases kind <;> decide

theorem writes_head (desc : Option Description) (kind : OperationKind) (hn : isName n) (hv : ∀ v ∈ vs, v.Valid Grammar.maxDepth)
    (hd : ∀ d ∈ ds, d.Valid false Grammar.maxDepth) :
    Writes (description desc ++
        join " " [kind.name, n ++ parenthesized (vs.map variableDefinition) false, directives ds]).toList
      (Description.outline desc ++ .name kind.name :: .name n ::
        (enclosed .parenL .parenR (vs.flatMap VariableDefinition.outline) ++ ds.flatMap Directive.outline)) := by
  have ⟨hp, hps⟩ := writes_parameters hv
  have hnp : Writes (n ++ parenthesized (vs.map variableDefinition) false).toList
      (.name n :: enclosed .parenL .parenR (vs.flatMap VariableDefinition.outline)) := by
    rw [String.toList_append]
    exact (Writes.named hn).append hp (.inr hps)
  have hw := writes_described desc (writes_join isGap_blank (.cons (.named (isName_kind kind)) (.cons hnp
    (.cons (writes_directives hd) .nil))))
  simpa only [List.flatten_cons, List.flatten_nil, List.append_nil, List.append_assoc, List.cons_append,
    List.nil_append] using hw

theorem writes_operation (h : (Definition.operation desc kind (some n) vs ds ss).Valid) (hn : isName n) :
    Writes (definition (.operation desc kind (some n) vs ds ss)).toList (operationOutline desc kind n vs ds ss) := by
  have ⟨hv, hd, hs⟩ := h
  have hh : Writes _ _ := writes_head desc kind hn hv hd
  have hb := writes_selectionBlock fun s h => writes_selection (hs s h)
  -- The keyword is left out of a query without a name only.
  have hq : description desc ++ join " " [kind.name, n ++ parenthesized (vs.map variableDefinition) false, directives ds]
      ≠ "query" := by
    intro he
    rw [he] at hh
    have hl := congrArg List.length (hh.eq (.named (by decide)))
    simp only [List.length_append, List.length_cons, List.length_nil] at hl
    omega
  rw [definition, Option.getD_some, if_neg hq, String.toList_append, String.toList_append]
  have hw := hh.append (hb.blanks isGap_blank.ignored) (.inr isGap_blank.stops)
  rw [operationOutline]
  simpa only [List.append_assoc, List.cons_append] using hw

theorem parse_definition (h : (Definition.operation desc kind (some n) vs ds ss).Valid) (hn : isName n) :
    (parse (definition (.operation desc kind (some n) vs ds ss))).toOption.isSome :=
  parse_of_writes h (writes_operation h hn)

-- A definition that was read without a name can be read again with one.
theorem parse_named {d e : Definition} (h : d.Valid) (hd : d.name? = none) (he : d.named? n = some e) (hn : isName n) :
    (parse (definition e)).toOption.isSome := by
  cases d
  case operation =>
    cases hd
    cases he
    exact parse_definition h hn
  case schema | extendSchema => cases he
  all_goals cases hd

end Print
end QueryGlean.Graphql
