import QueryGlean.Proofs.Graphql.Reading

namespace QueryGlean.Graphql

open Outline (mark)

namespace Grammar

variable {d fuel : Nat} {os : List Outline} {avoided : List TokenKind}

theorem starts_value (v : Value) : Starts [.bracketR] v.outline := by
  cases v <;> simp [Value.outline, Starts, Outline.mark, Outline.name]
  split <;> decide

theorem takes_variable' {n : String} : variable'.Takes d [mark .dollar, .name n] [] :=
  (takes_expect rfl).next fun _ => takes_name

theorem takes_value {constant : Bool} {room : Nat} {v : Value} (h : v.Valid constant room) (hd : d + room ≤ maxDepth)
    (hf : v.outline.length < fuel) : (value constant fuel).Takes d v.outline [] := by
  induction h generalizing d fuel <;> obtain ⟨n, rfl⟩ := Nat.exists_eq_add_one_of_ne_zero (Nat.ne_zero_of_lt hf)
  case «variable» hc _ =>
    refine .headed fun l rest ho => ?_
    have hk : l.kind = .dollar := congrArg Outline.kind ho
    simp only [hk, hc, Bool.false_eq_true, if_false]
    exact takes_variable'.map
  case int | float =>
    refine .headed fun l rest ho => ?_
    have hk := congrArg Outline.kind ho
    simp only [Lexeme.outline, mark] at hk
    simp only [hk]
    exact takes_advance.map
  case string b _ =>
    refine .headed fun l rest ho => ?_
    have hk := congrArg Outline.kind ho
    simp only [Lexeme.outline, mark] at hk
    cases b <;> simp only [hk] <;> exact takes_advance.map
  case boolean | null | enum =>
    refine .headed fun l rest ho => ?_
    have hk : l.kind = .name := congrArg Outline.kind ho
    simp only [hk]
    exact takes_advance.map
  case list vs room _ hi =>
    rw [Value.outline, Value.outlines_eq] at hf ⊢
    simp only [List.length_cons, List.length_append, List.length_nil] at hf
    have hs (v : Value) (_ : v ∈ vs) := starts_value v
    have hl := length_le_flatMap hs
    refine .headed fun l rest ho => ?_
    have hk : l.kind = .bracketL := congrArg Outline.kind ho
    simp only [hk]
    refine (Reader.Takes.nested (takes_any (fun v hv => ?_) hs (by simp) (by omega)) (by omega)).map
    -- A value is shorter than the list that it is in, so the fuel that is left is enough for it.
    have hv' := length_le_of_mem Value.outline hv
    exact hi v hv (by omega) (by omega)
  case object fs room hn _ hi =>
    rw [Value.outline, Value.fieldOutlines_eq] at hf ⊢
    simp only [List.length_cons, List.length_append, List.length_nil] at hf
    have hs (f : String × Value) (_ : f ∈ fs) : Starts [.braceR] (Value.fieldOutline f) :=
      ⟨_, rfl, by simp [Outline.name]⟩
    have hl := length_le_flatMap hs
    refine .headed fun l rest ho => ?_
    have hk : l.kind = .braceL := congrArg Outline.kind ho
    simp only [hk]
    refine (Reader.Takes.nested (takes_any (fun f hm => ?_) hs (by simp) (by omega)) (by omega)).map
    have hf' := length_le_of_mem Value.fieldOutline hm
    simp only [Value.fieldOutline, List.length_cons] at hf'
    exact takes_name.next fun _ => (takes_expect rfl).next fun _ => (hi f hm (by omega) (by omega)).map

theorem takes_arguments {constant : Bool} {room : Nat} {as : List Argument} (h : ∀ a ∈ as, a.Valid constant room)
    (hd : d + room ≤ maxDepth) (hf : (argumentsOutline as).length < fuel) :
    (arguments constant fuel).Takes d (argumentsOutline as) [.parenL] := by
  have hs (a : Argument) (_ : a ∈ as) : Starts [.parenR] a.outline := ⟨_, rfl, by simp [Outline.name]⟩
  have hl := length_le_flatMap hs
  have he : (as.flatMap Argument.outline).length ≤ (argumentsOutline as).length := length_enclosed
  refine takes_optionalMany (fun a ha => ?_) hs (by simp) (by omega)
  have hv := length_le_of_mem Argument.outline ha
  simp only [Argument.outline, List.length_cons] at hv
  exact takes_name.next fun _ => (takes_expect rfl).next fun _ => (takes_value (h a ha).value hd (by omega)).map

theorem starts_directive {ds : List Directive} (ha : .at' ∉ avoided) : ∀ d ∈ ds, Starts avoided d.outline :=
  fun _ _ => ⟨_, rfl, ha⟩

theorem length_directives (ds : List Directive) : ds.length ≤ (ds.flatMap Directive.outline).length :=
  length_le_flatMap (starts_directive List.not_mem_nil)

theorem takes_directives {constant : Bool} {room n : Nat} {ds : List Directive} (h : ∀ d ∈ ds, d.Valid constant room)
    (hd : d + room ≤ maxDepth) (hf : (ds.flatMap Directive.outline).length < fuel) (hn : ds.length < n) :
    (directives constant fuel n).Takes d (ds.flatMap Directive.outline) [.at', .parenL] := by
  have ⟨m, hm⟩ := Nat.exists_eq_add_one_of_ne_zero (Nat.ne_zero_of_lt hn)
  subst hm
  induction ds generalizing m
  case nil => exact .left .pure (follows_nil (by simp))
  case cons x xs hi =>
    have ⟨hx, hxs⟩ := List.forall_mem_cons.mp h
    simp only [List.flatMap_cons, Directive.outline, List.cons_append, List.length_cons, List.length_append] at hf ⊢
    obtain ⟨m, rfl⟩ := Nat.exists_eq_add_one_of_ne_zero (show m ≠ 0 by simp at hn; omega)
    have ha := takes_arguments hx.arguments hd (show (argumentsOutline x.arguments).length < fuel by omega)
    have hr := hi hxs (by omega) m (by simpa using hn)
    refine .taken (takes_name.next fun _ => ha.bind (fun _ => hr.map) ?_) rfl
    exact follows_flatMap (starts_directive (by simp)) (by simp)

def orNonNull (t : TypeReference) : Reader TypeReference := do
  if ← Grammar.optional .bang then return .nonNull t else return t

theorem takes_orNonNull {t : TypeReference} :
    (orNonNull t).Takes d [] [.bang] ∧ (orNonNull t).Takes d [mark .bang] [] :=
  ⟨.left .pure (follows_nil (List.Subset.refl _)), .taken .pure rfl⟩

theorem takes_typeReference {room : Nat} {t : TypeReference} (h : t.Valid room) (hd : d + room ≤ maxDepth)
    (hf : t.outline.length < fuel) : (typeReference fuel).Takes d t.outline [.bang] ∧
      ((∀ t', t ≠ .nonNull t') → (typeReference fuel).Takes d (t.outline ++ [mark .bang]) []) := by
  induction h generalizing d fuel <;> obtain ⟨n, rfl⟩ := Nat.exists_eq_add_one_of_ne_zero (Nat.ne_zero_of_lt hf)
  case named word _ _ =>
    have base {ps avoided} (h : ∀ t, (orNonNull t).Takes d ps avoided) :
        (typeReference (n + 1)).Takes d (.name word :: ps) avoided :=
      .left (takes_name.next fun _ => h _) (follows_cons (by simp [Outline.name]))
    exact ⟨base fun _ => takes_orNonNull.left, fun _ => base fun _ => takes_orNonNull.right⟩
  case list t room _ hi =>
    simp only [TypeReference.outline, List.length_cons, List.length_append, List.length_nil] at hf
    have ht : Reader.Takes d t.outline [.bang] (nested (typeReference n)) :=
      (hi (by omega) (by omega)).left.nested (by omega)
    have base {ps avoided} (h : ∀ t, (orNonNull t).Takes d ps avoided) :
        (typeReference (n + 1)).Takes d (mark .bracketL :: (t.outline ++ mark .bracketR :: ps)) avoided :=
      .taken (ht.bind (fun _ => (takes_expect rfl).next fun _ => h _) (follows_cons (by decide))) rfl
    rw [TypeReference.outline, List.cons_append, List.append_assoc]
    exact ⟨base fun _ => takes_orNonNull.left, fun _ => base fun _ => takes_orNonNull.right⟩
  case nonNull hn hi =>
    rw [TypeReference.outline, List.length_append] at hf
    exact ⟨((hi hd (by omega)).right hn).mono (List.nil_subset _), fun h => absurd rfl (h _)⟩

theorem takes_fragmentName {n : String} (hn : n ≠ "on") : fragmentName.Takes d [.name n] [] := by
  refine .headed fun l rest ho => ?_
  have hk : l.kind = .name := congrArg Outline.kind ho
  have hw : l.spelling = n := by simpa [Lexeme.outline, Outline.name, hk] using congrArg Outline.word ho
  rw [if_neg (by simp [standsFor, Lexeme.value, hk, hw, hn])]
  exact takes_name

def ends : List TokenKind := [.colon, .parenL, .at', .braceL]

theorem starts_selection (s : Selection) : Starts (.braceR :: ends) s.outline := by
  cases s
  case field label _ _ _ inner =>
    cases label <;> cases inner <;> simp [Selection.outline, Selection.labelOutline, Starts, Outline.name, ends]
  case spread => exact ⟨_, rfl, by decide⟩
  case inline => exact ⟨_, rfl, by decide⟩

theorem takes_selections {ss : List Selection}
    (h : ∀ s ∈ ss, ∀ fuel, s.outline.length < fuel → (selection fuel).Takes (d + 1) s.outline ends)
    (hd : d < maxDepth) (hf : (ss.flatMap Selection.outline).length + 1 < fuel) :
    (selections fuel).Takes d (mark .braceL :: (ss.flatMap Selection.outline ++ [mark .braceR])) [] := by
  obtain ⟨n, rfl⟩ := Nat.exists_eq_add_one_of_ne_zero (Nat.ne_zero_of_lt hf)
  have hs (s : Selection) (_ : s ∈ ss) := starts_selection s
  have hl := length_le_flatMap hs
  refine (takes_any (fun s hm => h s hm n ?_) hs (by decide) (by omega)).nested hd
  have hl := length_le_of_mem Selection.outline hm
  omega

theorem follows_enclosed (ho : opening ∉ avoided) : Follows avoided avoided (enclosed opening closing os) := by
  unfold enclosed
  split
  case isTrue  => exact follows_nil (List.Subset.refl _)
  case isFalse => exact follows_cons ho

theorem takes_field {label : Option String} {n : String} {as : List Argument} {ds : List Directive} {room : Nat}
    (ha : ∀ a ∈ as, a.Valid false room) (hds : ∀ x ∈ ds, x.Valid false room) (hd : d + room ≤ maxDepth)
    (hfa : (argumentsOutline as).length < fuel) (hfd : (ds.flatMap Directive.outline).length < fuel)
    (ho : Follows [.colon, .at', .parenL] ends os)
    (hi : ∀ f : Option (List Selection) → Selection, Reader.Takes d os ends (do
      let inner ← if ← peekIs .braceL then pure (some (← selections fuel)) else pure none
      return f inner)) :
    (selection (fuel + 1)).Takes d (Selection.labelOutline label ++ .name n ::
      (argumentsOutline as ++ (ds.flatMap Directive.outline ++ os))) ends := by
  have hl := length_directives ds
  have hfol (avoided) (h₁ : .at' ∉ avoided) (h₂ : avoided ⊆ [.colon, .at', .parenL]) :
      Follows avoided ends (ds.flatMap Directive.outline ++ os) :=
    (follows_flatMap (starts_directive h₁) h₂).append ho
  have tail (label : Option String) (n : String) : Reader.Takes d
      (argumentsOutline as ++ (ds.flatMap Directive.outline ++ os)) ends (do
        let as ← arguments false fuel
        let ds ← directives false fuel fuel
        let inner ← if ← peekIs .braceL then pure (some (← selections fuel)) else pure none
        return Selection.field label n as ds inner) :=
    (takes_arguments ha hd hfa).bind
      (fun as => (takes_directives hds hd hfd (by omega)).bind (fun ds => hi _) (ho.subset (by decide)))
      (hfol _ (by decide) (by decide))
  cases label
  case none =>
    refine .left (takes_name.next fun _ => .left (tail none _) ?_) (follows_cons (by simp [Outline.name]))
    exact (follows_enclosed (by decide)).append (hfol _ (by decide) (by decide))
  case some l =>
    exact .left (takes_name.next fun _ => .taken (takes_name.next fun _ => tail (some _) _) rfl)
      (follows_cons (by simp [Outline.name]))

theorem takes_selection {room : Nat} {s : Selection} (h : s.Valid room) (hd : d + room ≤ maxDepth)
    (hf : s.outline.length < fuel) : (selection fuel).Takes d s.outline ends := by
  induction h generalizing d fuel <;> obtain ⟨n, rfl⟩ := Nat.exists_eq_add_one_of_ne_zero (Nat.ne_zero_of_lt hf)
  case leaf ha hds =>
    rw [Selection.outline] at hf ⊢
    simp only [List.length_cons, List.length_append] at hf
    rw [← List.append_nil (List.flatMap _ _)]
    refine takes_field ha hds hd (by omega) (by omega) (follows_nil (by decide)) fun f => ?_
    exact .unseen .pure (follows_nil (by decide))
  case branch ss _ _ _ ha hds _ hi =>
    rw [Selection.outline, Selection.outlines_eq] at hf ⊢
    simp only [List.length_cons, List.length_append] at hf
    have hss : (selections n).Takes d (mark .braceL :: (ss.flatMap Selection.outline ++ [mark .braceR])) [] :=
      takes_selections (fun s hs _ hf => hi s hs (by omega) hf) (by omega) (by omega)
    refine takes_field ha hds hd (by omega) (by omega) (follows_cons (by decide)) fun f => ?_
    exact .peeked (hss.map.mono (List.nil_subset _)) rfl
  case spread ds room hn ho hds =>
    rw [Selection.outline] at hf ⊢
    simp only [List.length_cons] at hf
    have hl := length_directives ds
    have hr : Reader.Takes d (ds.flatMap Directive.outline) [.at', .parenL] (directives false n n) :=
      takes_directives hds hd (by omega) (by omega)
    refine .taken (.unworded (.peeked ((takes_fragmentName ho).next fun _ => (hr.mono (by decide)).map) rfl) ?_) rfl
    simpa [Outline.name] using ho
  case inline condition ds ss room _ hds _ hi =>
    rw [Selection.outline, Selection.outlines_eq] at hf ⊢
    simp only [List.length_cons, List.length_append] at hf
    have hl := length_directives ds
    have hss : (selections n).Takes d (mark .braceL :: (ss.flatMap Selection.outline ++ [mark .braceR])) [] :=
      takes_selections (fun s hs _ hf => hi s hs (by omega) hf) (by omega) (by omega)
    have tail (condition : Option String) : Reader.Takes d (ds.flatMap Directive.outline ++
        mark .braceL :: (ss.flatMap Selection.outline ++ [mark .braceR])) ends (do
          let ds ← directives false n n
          return Selection.inline condition ds (← selections n)) :=
      (takes_directives hds hd (by omega) (by omega)).bind (fun _ => hss.map.mono (List.nil_subset _))
        (follows_cons (by decide))
    cases condition
    case none =>
      -- Without a condition, what follows must not look like the name of one.
      have hk : ∃ o os, ds.flatMap Directive.outline ++ mark .braceL :: (ss.flatMap Selection.outline ++ [mark .braceR]) =
          o :: os ∧ o.kind ≠ .name := by
        cases ds <;> exact ⟨_, _, rfl, by decide⟩
      obtain ⟨o, os, ho, hk⟩ := hk
      rw [ho] at tail
      rw [Selection.conditionOutline, List.nil_append, ho]
      refine .taken (.unworded (.unseen (tail none) (follows_cons (by simpa using hk))) ?_) rfl
      exact fun h => hk (congrArg Outline.kind h)
    case some c => exact .taken (.worded (.peek fun _ => takes_name.next fun _ => tail _)) rfl

theorem takes_description {desc : Option Description} :
    description.Takes d (Description.outline desc) [.string, .blockString] := by
  cases desc
  case none =>
    intro ls rest hl hq
    cases List.map_eq_nil_iff.mp hl
    refine ⟨none, (bind_of_ok rfl).trans ?_⟩
    cases rest
    case nil => rfl
    case cons l rest =>
      have hk : ¬(l.kind = .string ∨ l.kind = .blockString) := by simpa [Free, Lexeme.outline] using hq
      simp only [List.nil_append, hk, if_false]
      rfl
  case some desc =>
    refine .headed fun l rest ho => ?_
    have hk : l.kind = .string ∨ l.kind = .blockString := by
      have := congrArg Outline.kind ho
      simp only [Lexeme.outline, mark] at this
      rw [this]
      cases desc.block <;> simp
    simp only [hk, if_true]
    exact takes_advance.map.mono (List.nil_subset _)

theorem takes_defaultValue {room : Nat} {v : Option Value} (h : ∀ x, v = some x → x.Valid true room)
    (hd : d + room ≤ maxDepth) (hf : (Value.defaultOutline v).length < fuel) :
    (defaultValue fuel).Takes d (Value.defaultOutline v) [.equals] := by
  cases v
  case none => exact .left .pure (follows_nil (List.Subset.refl _))
  case some x =>
    rw [Value.defaultOutline, List.length_cons] at hf
    exact .taken ((takes_value (h x rfl) hd (by omega)).map.mono (List.nil_subset _)) rfl

theorem follows_defaultOutline {v : Option Value} (h : .equals ∉ avoided) :
    Follows avoided avoided (Value.defaultOutline v) := by
  cases v
  case none => exact follows_nil (List.Subset.refl _)
  case some => exact follows_cons h

def variableEnds : List TokenKind := [.bang, .equals, .at', .parenL]

theorem takes_variableDefinition {room : Nat} {v : VariableDefinition} (h : v.Valid room) (hd : d + room ≤ maxDepth)
    (hf : v.outline.length < fuel) : (variableDefinition fuel).Takes d v.outline variableEnds := by
  rw [VariableDefinition.outline] at hf ⊢
  simp only [List.length_cons, List.length_append] at hf
  have hl := length_directives v.directives
  have ht : Reader.Takes d v.type.outline [.bang] (typeReference fuel) := (takes_typeReference h.type hd (by omega)).left
  have hv : Reader.Takes d (Value.defaultOutline v.default) [.equals] (defaultValue fuel) :=
    takes_defaultValue h.default hd (by omega)
  have hds : Reader.Takes d (v.directives.flatMap Directive.outline) [.at', .parenL] (directives true fuel fuel) :=
    takes_directives h.directives hd (by omega) (by omega)
  refine takes_description.bind (fun _ => ?_) (follows_cons (by decide))
  refine takes_variable'.next fun _ => (takes_expect rfl).next fun _ => ?_
  refine ht.bind (fun _ => hv.bind (fun _ => (hds.mono (by decide)).map) ?_) ?_
  · exact follows_flatMap (starts_directive (by decide)) (by decide)
  · exact (follows_defaultOutline (by decide)).append (follows_flatMap (starts_directive (by decide)) (by decide))

theorem starts_variableDefinition (v : VariableDefinition) : Starts (.parenR :: variableEnds) v.outline := by
  rw [VariableDefinition.outline]
  cases v.description
  case none => exact ⟨_, rfl, by decide⟩
  case some desc =>
    refine ⟨_, rfl, ?_⟩
    cases desc.block <;> decide

theorem takes_operationKind {kind : OperationKind} : operationKind.Takes d [.name kind.name] [] := by
  intro ls rest hl _
  have ⟨l, hs, ho⟩ := List.map_eq_singleton_iff.mp hl
  have hk : l.kind = .name := congrArg Outline.kind ho
  have hw : l.spelling = kind.name := by simpa [Lexeme.outline, Outline.name, hk] using congrArg Outline.word ho
  refine ⟨kind, ?_⟩
  rw [hs]
  refine (bind_of_ok rfl).trans ((bind_of_ok (expect_cons hk)).trans ?_)
  rw [hw, OperationKind.ofName?_name]
  rfl

theorem takes_operation {desc : Option Description} {kind : OperationKind} {n : String} {vs : List VariableDefinition}
    {ds : List Directive} {ss : List Selection} (h : (Definition.operation desc kind (some n) vs ds ss).Valid)
    (hf : (operationOutline desc kind n vs ds ss).length < fuel) :
    (operation fuel).Takes 0 (operationOutline desc kind n vs ds ss) [] := by
  have ⟨hv, hds, hss⟩ := h
  rw [operationOutline, Selection.outlines_eq] at hf ⊢
  simp only [List.length_cons, List.length_append] at hf
  have he : (vs.flatMap VariableDefinition.outline).length ≤
    (enclosed .parenL .parenR (vs.flatMap VariableDefinition.outline)).length := length_enclosed
  have hl := length_le_flatMap fun v (_ : v ∈ vs) => starts_variableDefinition v
  have hl' := length_directives ds
  have hm : 0 < maxDepth := by decide
  have parameters : Reader.Takes 0 (enclosed .parenL .parenR (vs.flatMap VariableDefinition.outline)) [.parenL]
      (optionalMany fuel .parenL .parenR (variableDefinition fuel)) := by
    refine takes_optionalMany (fun v hm => takes_variableDefinition (hv v hm) (Nat.le_of_eq (Nat.zero_add _)) ?_)
      (fun v _ => starts_variableDefinition v) (by decide) (by omega)
    have := length_le_of_mem VariableDefinition.outline hm
    omega
  have directives : Reader.Takes 0 (ds.flatMap Directive.outline) [.at', .parenL] (directives false fuel fuel) :=
    takes_directives hds (Nat.le_of_eq (Nat.zero_add _)) (by omega) (by omega)
  have body : (selections fuel).Takes 0 (mark .braceL :: (ss.flatMap Selection.outline ++ [mark .braceR])) [] :=
    takes_selections (fun s hs _ hf => takes_selection (hss s hs) (by omega) hf) hm (by omega)
  refine .unseen (takes_description.bind (fun _ => ?_) (follows_cons (by simp [Outline.name]))) ?_
  · refine takes_operationKind.next fun _ => .peeked (takes_name.next fun _ => ?_) rfl
    refine parameters.bind (fun _ => directives.bind (fun _ => body.map) (follows_cons (by decide))) ?_
    exact (follows_flatMap (starts_directive (by decide)) (List.Subset.refl _)).append (follows_cons (by decide))
  · cases desc
    case none => exact follows_cons (by simp [Outline.name])
    case some desc => exact follows_cons (by cases desc.block <;> simp [mark])

theorem name_not_mem (kind : OperationKind) : kind.name ∉ "schema" :: "directive" :: typeKeywords := by
  cases kind <;> decide

theorem definition_of_kind {l : Lexeme} {rest : List Lexeme} {kind : OperationKind} (h : l.outline = .name kind.name) :
    definition fuel ⟨l :: rest, false, d⟩ = operation fuel ⟨l :: rest, false, d⟩ := by
  have hk : l.kind = .name := congrArg Outline.kind h
  have hw : l.spelling = kind.name := by simpa [Lexeme.outline, Outline.name, hk] using congrArg Outline.word h
  have hn := name_not_mem kind
  simp only [List.mem_cons, not_or] at hn
  refine (bind_of_ok rfl).trans ?_
  simp only [List.head?_cons, Option.any_some, hk]
  refine (bind_of_ok rfl).trans ?_
  simp [hk, hw, hn, OperationKind.ofName?_name]

theorem lookahead_cons {l₁ l₂ : Lexeme} {rest : List Lexeme} :
    lookahead ⟨l₁ :: l₂ :: rest, false, d⟩ = .ok (l₂ :: rest, ⟨l₁ :: l₂ :: rest, false, d⟩) :=
  rfl

theorem definition_of_description {l₁ l₂ : Lexeme} {rest : List Lexeme} {kind : OperationKind}
    (h₁ : l₁.kind = .string ∨ l₁.kind = .blockString) (h : l₂.outline = .name kind.name) :
    definition fuel ⟨l₁ :: l₂ :: rest, false, d⟩ = operation fuel ⟨l₁ :: l₂ :: rest, false, d⟩ := by
  have hk : l₂.kind = .name := congrArg Outline.kind h
  have hw : l₂.spelling = kind.name := by simpa [Lexeme.outline, Outline.name, hk] using congrArg Outline.word h
  have hn := name_not_mem kind
  simp only [List.mem_cons, not_or] at hn
  have hs : (l₁.kind == .string || l₁.kind == .blockString) = true := by simpa using h₁
  refine (bind_of_ok rfl).trans ?_
  simp only [List.head?_cons, Option.any_some, hs, if_true]
  refine (bind_of_ok lookahead_cons).trans ?_
  simp [hk, hw, hn, OperationKind.ofName?_name]

theorem takes_definition {desc : Option Description} {kind : OperationKind} {n : String} {vs : List VariableDefinition}
    {ds : List Directive} {ss : List Selection} (h : (Definition.operation desc kind (some n) vs ds ss).Valid)
    (hf : (operationOutline desc kind n vs ds ss).length < fuel) :
    (definition fuel).Takes 0 (operationOutline desc kind n vs ds ss) [] := by
  intro ls rest hl hq
  have ⟨a, ha⟩ := takes_operation h hf hl hq
  refine ⟨a, ?_⟩
  rw [← ha]
  cases desc
  case none =>
    have ⟨l, ls', hs, ho, _⟩ := List.map_eq_cons_iff.mp hl
    rw [hs]
    exact definition_of_kind ho
  case some desc =>
    have ⟨l₁, ls₁, hs₁, ho₁, hl⟩ := List.map_eq_cons_iff.mp hl
    have ⟨l₂, ls₂, hs₂, ho₂, _⟩ := List.map_eq_cons_iff.mp hl
    rw [hs₁, hs₂]
    refine definition_of_description ?_ ho₂
    have hk := congrArg Outline.kind ho₁
    simp only [Lexeme.outline, mark] at hk
    rw [hk]
    cases desc.block <;> simp

theorem definitionsOf_of_takes {ls : List Lexeme} (h : (definition (2 * ls.length + 2)).Takes 0 os [])
    (hl : ls.map Lexeme.outline = os) : ∃ ds, definitionsOf ls false = .ok ds := by
  have hq : Free [] (([] : List Lexeme).map Lexeme.outline) := fun _ _ => List.not_mem_nil
  have ⟨e, he⟩ := h hl hq
  rw [List.append_nil] at he
  have hd : document (2 * ls.length + 2) (ls.length + 1) ⟨ls, false, 0⟩ = .ok ([(e, ls.length)], ⟨[], false, 0⟩) :=
    (bind_of_ok rfl).trans ((bind_of_ok he).trans rfl)
  exact ⟨_, by simp [definitionsOf, hd]; rfl⟩

end Grammar

theorem parse_of_writes {desc : Option Description} {kind : OperationKind} {n text : String}
    {vs : List VariableDefinition} {ds : List Directive} {ss : List Selection}
    (h : (Definition.operation desc kind (some n) vs ds ss).Valid)
    (hw : Writes text.toList (operationOutline desc kind n vs ds ss)) : (parse text).toOption.isSome := by
  have ⟨hn, hs⟩ := hw.ofString
  have hl : ((TokenStream.ofString text).tokens.map (·.toLexeme)).map Lexeme.outline =
      operationOutline desc kind n vs ds ss := by rw [List.map_map]; exact hs
  have ⟨es, he⟩ :=
    Grammar.definitionsOf_of_takes (Grammar.takes_definition h (by rw [← hl, List.length_map]; omega)) hl
  simp only [parse, hn, Option.isSome_none, he]
  rfl

end QueryGlean.Graphql
