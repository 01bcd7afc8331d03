import QueryGlean.Proofs.Graphql.Outline
import QueryGlean.Proofs.Graphql.Valid

namespace QueryGlean.Graphql

open Outline (mark)

def enclosed (opening closing : TokenKind) (os : List Outline) : List Outline :=
  if os = [] then [] else mark opening :: (os ++ [mark closing])

mutual

def Value.outline : Value → List Outline
  | .variable n => [mark .dollar, .name n]
  | .int _ => [mark .int]
  | .float _ => [mark .float]
  | .string _ b => [mark (if b then .blockString else .string)]
  | .boolean b => [.name (if b then "true" else "false")]
  | .null => [.name "null"]
  | .enum n => [.name n]
  | .list vs => mark .bracketL :: (Value.outlines vs ++ [mark .bracketR])
  | .object fs => mark .braceL :: (Value.fieldOutlines fs ++ [mark .braceR])

def Value.outlines : List Value → List Outline
  | [] => []
  | v :: vs => v.outline ++ Value.outlines vs

def Value.fieldOutlines : List (String × Value) → List Outline
  | [] => []
  | (k, v) :: fs => .name k :: mark .colon :: v.outline ++ Value.fieldOutlines fs

end

def Value.fieldOutline (f : String × Value) : List Outline :=
  .name f.1 :: mark .colon :: f.2.outline

def Argument.outline (a : Argument) : List Outline :=
  .name a.name :: mark .colon :: a.value.outline

def argumentsOutline (as : List Argument) : List Outline :=
  enclosed .parenL .parenR (as.flatMap Argument.outline)

def Directive.outline (d : Directive) : List Outline :=
  mark .at' :: .name d.name :: argumentsOutline d.arguments

def TypeReference.outline : TypeReference → List Outline
  | .named n => [.name n]
  | .list t => mark .bracketL :: (t.outline ++ [mark .bracketR])
  | .nonNull t => t.outline ++ [mark .bang]

def Selection.labelOutline : Option String → List Outline
  | none => []
  | some l => [.name l, mark .colon]

def Selection.conditionOutline : Option String → List Outline
  | none => []
  | some c => [.name "on", .name c]

mutual

def Selection.outline : Selection → List Outline
  | .field label n as ds none =>
    labelOutline label ++ .name n :: (argumentsOutline as ++ ds.flatMap Directive.outline)
  | .field label n as ds (some ss) =>
    labelOutline label ++ .name n :: (argumentsOutline as ++ (ds.flatMap Directive.outline ++
      mark .braceL :: (Selection.outlines ss ++ [mark .braceR])))
  | .spread n ds => mark .spread :: .name n :: ds.flatMap Directive.outline
  | .inline condition ds ss =>
    mark .spread :: (conditionOutline condition ++ (ds.flatMap Directive.outline ++
      mark .braceL :: (Selection.outlines ss ++ [mark .braceR])))

def Selection.outlines : List Selection → List Outline
  | [] => []
  | s :: ss => s.outline ++ Selection.outlines ss

end

def Description.outline : Option Description → List Outline
  | none => []
  | some d => [mark (if d.block then .blockString else .string)]

def Value.defaultOutline : Option Value → List Outline
  | none => []
  | some v => mark .equals :: v.outline

def VariableDefinition.outline (v : VariableDefinition) : List Outline :=
  Description.outline v.description ++ mark .dollar :: .name v.name :: mark .colon ::
    (v.type.outline ++ (Value.defaultOutline v.default ++ v.directives.flatMap Directive.outline))

def operationOutline (description : Option Description) (kind : OperationKind) (name : String)
    (parameters : List VariableDefinition) (directives : List Directive) (selections : List Selection) : List Outline :=
  Description.outline description ++ .name kind.name :: .name name ::
    (enclosed .parenL .parenR (parameters.flatMap VariableDefinition.outline) ++
      (directives.flatMap Directive.outline ++ mark .braceL :: (Selection.outlines selections ++ [mark .braceR])))

theorem Value.outlines_eq (vs : List Value) : Value.outlines vs = vs.flatMap Value.outline := by
  induction vs
  case nil => rfl
  case cons v vs hi => rw [outlines, hi, List.flatMap_cons]

theorem Value.fieldOutlines_eq (fs : List (String × Value)) :
    Value.fieldOutlines fs = fs.flatMap Value.fieldOutline := by
  induction fs
  case nil => rfl
  case cons f fs hi => rw [fieldOutlines, hi, List.flatMap_cons, fieldOutline]

theorem Selection.outlines_eq (ss : List Selection) : Selection.outlines ss = ss.flatMap Selection.outline := by
  induction ss
  case nil => rfl
  case cons s ss hi => rw [outlines, hi, List.flatMap_cons]

def Free (avoided : List TokenKind) (os : List Outline) : Prop :=
  ∀ o ∈ os.head?, o.kind ∉ avoided

namespace Grammar

variable {α β γ : Type} {r r₁ r₂ item : Reader α} {f : α → Reader β} {d fuel : Nat}
variable {os ps : List Outline} {o : Outline} {k : TokenKind} {avoided avoided' : List TokenKind}

-- Lexemes with an outline are read to their end, if none of these kinds follows.
def Reader.Takes (d : Nat) (os : List Outline) (avoided : List TokenKind) (r : Reader α) : Prop :=
  ∀ ⦃ls rest⦄, ls.map Lexeme.outline = os → Free avoided (rest.map Lexeme.outline) →
    ∃ a, r ⟨ls ++ rest, false, d⟩ = .ok (a, ⟨rest, false, d⟩)

def Follows (avoided avoided' : List TokenKind) (os : List Outline) : Prop :=
  ∀ qs, Free avoided' qs → Free avoided (os ++ qs)

theorem follows_cons (h : o.kind ∉ avoided) : Follows avoided avoided' (o :: os) :=
  fun _ _ => by simpa [Free] using h

theorem Follows.append {others : List TokenKind} (ho : Follows avoided others os)
    (hp : Follows others avoided' ps) : Follows avoided avoided' (os ++ ps) :=
  fun _ hq => by
    rw [List.append_assoc]
    exact ho _ (hp _ hq)

theorem follows_nil (h : avoided ⊆ avoided') : Follows avoided avoided' [] :=
  fun _ hq o ho hk => hq o ho (h hk)

theorem Follows.subset (h : Follows avoided avoided' os) {others : List TokenKind} (ha : others ⊆ avoided) :
    Follows others avoided' os :=
  fun _ hq o ho hk => h _ hq o ho (ha hk)

theorem follows_any : Follows [] avoided' os :=
  fun _ _ _ _ => by simp

theorem bind_of_ok {c c' : Cursor} {a : α} (h : r c = .ok (a, c')) : (r >>= f) c = f a c' := by
  change Reader.bind r f c = _
  rw [Reader.bind, h]

namespace Reader.Takes

theorem pure {a : α} : (Pure.pure a : Reader α).Takes d [] avoided := by
  intro ls rest hl _
  cases List.map_eq_nil_iff.mp hl
  exact ⟨a, rfl⟩

theorem bind (hr : r.Takes d os avoided) (hf : ∀ a, (f a).Takes d ps avoided') (hn : Follows avoided avoided' ps) :
    (r >>= f).Takes d (os ++ ps) avoided' := by
  intro ls rest hl hq
  have ⟨xs, ys, hs, hx, hy⟩ := List.map_eq_append_iff.mp hl
  have hq' : Free avoided ((ys ++ rest).map Lexeme.outline) := by rw [List.map_append, hy]; exact hn _ hq
  have ⟨a, ha⟩ := hr hx hq'
  have ⟨b, hb⟩ := hf a hy hq
  exact ⟨b, by rw [hs, List.append_assoc, bind_of_ok ha, hb]⟩

theorem map {h : α → γ} (hr : r.Takes d os avoided) : (r >>= fun a => Pure.pure (h a)).Takes d os avoided := by
  have hp (a : α) : (Pure.pure (h a) : Reader γ).Takes d [] avoided := pure
  have hb := hr.bind hp (follows_nil (List.Subset.refl _))
  rwa [List.append_nil] at hb

theorem mono (h : r.Takes d os avoided) (ha : avoided ⊆ avoided') : r.Takes d os avoided' :=
  fun _ _ hl hq => h hl fun o ho hk => hq o ho (ha hk)

theorem next (hr : r.Takes d os []) (hf : ∀ a, (f a).Takes d ps avoided') : (r >>= f).Takes d (os ++ ps) avoided' :=
  hr.bind hf follows_any

theorem nested (h : r.Takes (d + 1) os avoided) (hd : d < maxDepth) : (Grammar.nested r).Takes d os avoided := by
  intro ls rest hl hq
  have ⟨a, ha⟩ := h hl hq
  exact ⟨a, by simp [Grammar.nested, Nat.not_le.mpr hd, ha]⟩

end Reader.Takes

theorem advance_cons {l : Lexeme} {rest : List Lexeme} : advance ⟨l :: rest, false, d⟩ = .ok ((), ⟨rest, false, d⟩) := by
  simp [advance]

theorem expect_cons {l : Lexeme} {rest : List Lexeme} (hk : l.kind = k) :
    expect k ⟨l :: rest, false, d⟩ = .ok (l, ⟨rest, false, d⟩) := by
  refine (bind_of_ok rfl).trans ?_
  simp only [hk, if_true]
  exact bind_of_ok advance_cons

theorem takes_expect (hk : o.kind = k) : (expect k).Takes d [o] [] := by
  intro ls rest hl _
  have ⟨l, hs, ho⟩ := List.map_eq_singleton_iff.mp hl
  exact ⟨l, by rw [hs]; exact expect_cons (hk ▸ congrArg Outline.kind ho)⟩

theorem takes_name {n : String} : name.Takes d [.name n] [] :=
  (takes_expect rfl).map

theorem Reader.Takes.headed {f : List Lexeme → Reader β}
    (h : ∀ l rest, l.outline = o → (f (l :: rest)).Takes d (o :: os) avoided) :
    (lexemes >>= f).Takes d (o :: os) avoided := by
  intro ls rest hl hq
  have ⟨l, ls', hs, ho, _⟩ := List.map_eq_cons_iff.mp hl
  have ⟨b, hb⟩ := h l (ls' ++ rest) ho hl hq
  exact ⟨b, (bind_of_ok rfl).trans (by simpa [hs] using hb)⟩

theorem takes_advance : advance.Takes d [o] [] := by
  intro ls rest hl _
  have ⟨l, hs, _⟩ := List.map_eq_singleton_iff.mp hl
  exact ⟨(), by rw [hs]; exact advance_cons⟩

theorem head?_any_eq_true {ls : List Lexeme} (rest : List Lexeme) (hl : ls.map Lexeme.outline = o :: os) :
    (ls ++ rest).head?.any (·.kind == o.kind) = true := by
  have ⟨l, ls', hs, ho, _⟩ := List.map_eq_cons_iff.mp hl
  simp [hs, ← ho, Lexeme.outline]

theorem head?_any_eq_false {ls rest : List Lexeme} (hn : Follows [k] avoided os) (hl : ls.map Lexeme.outline = os)
    (hq : Free avoided (rest.map Lexeme.outline)) : (ls ++ rest).head?.any (·.kind == k) = false := by
  have hf := hn _ hq
  rw [← hl, ← List.map_append] at hf
  cases hs : ls ++ rest
  case nil => rfl
  case cons l ls => simpa [Free, hs, Lexeme.outline] using hf

theorem isKeyword_iff {word : String} {l : Lexeme} : isKeyword word l ↔ l.outline = .name word := by
  by_cases hk : l.kind = .name <;> simp [isKeyword, Lexeme.outline, Outline.name, hk]

namespace Reader.Takes

theorem peeked (h : r₁.Takes d (o :: os) avoided) (hk : o.kind = k) :
    Takes d (o :: os) avoided (do if ← peekIs k then r₁ else r₂) := by
  intro ls rest hl hq
  have ⟨a, ha⟩ := h hl hq
  refine ⟨a, (bind_of_ok rfl).trans ?_⟩
  rw [← hk, if_pos (head?_any_eq_true rest hl), ha]

theorem peek {f : Bool → Reader β} (h : ∀ b, (f b).Takes d os avoided) : (peekIs k >>= f).Takes d os avoided := by
  intro ls rest hl hq
  have ⟨a, ha⟩ := h ((ls ++ rest).head?.any (·.kind == k)) hl hq
  exact ⟨a, (bind_of_ok rfl).trans ha⟩

theorem unseen (h : r₂.Takes d os avoided) (hn : Follows [k] avoided os) :
    Takes d os avoided (do if ← peekIs k then r₁ else r₂) := by
  intro ls rest hl hq
  have ⟨a, ha⟩ := h hl hq
  refine ⟨a, (bind_of_ok rfl).trans ?_⟩
  rw [if_neg (Bool.eq_false_iff.mp (head?_any_eq_false hn hl hq)), ha]

theorem taken (h : r₁.Takes d os avoided) (hk : o.kind = k) :
    Takes d (o :: os) avoided (do if ← Grammar.optional k then r₁ else r₂) := by
  intro ls rest hl hq
  have hp := head?_any_eq_true rest hl
  have ⟨l, ls', hs, _, hl'⟩ := List.map_eq_cons_iff.mp hl
  have ⟨a, ha⟩ := h hl' hq
  have ho : Grammar.optional k ⟨ls ++ rest, false, d⟩ = .ok (true, ⟨ls' ++ rest, false, d⟩) :=
    (bind_of_ok rfl).trans (by rw [← hk, if_pos hp, hs]; exact bind_of_ok advance_cons)
  exact ⟨a, by rw [bind_of_ok ho, if_pos rfl, ha]⟩

theorem left (h : r₂.Takes d os avoided) (hn : Follows [k] avoided os) :
    Takes d os avoided (do if ← Grammar.optional k then r₁ else r₂) := by
  intro ls rest hl hq
  have ⟨a, ha⟩ := h hl hq
  have ho : Grammar.optional k ⟨ls ++ rest, false, d⟩ = .ok (false, ⟨ls ++ rest, false, d⟩) :=
    (bind_of_ok rfl).trans (by rw [if_neg (Bool.eq_false_iff.mp (head?_any_eq_false hn hl hq))]; rfl)
  exact ⟨a, by rw [bind_of_ok ho, if_neg (by simp), ha]⟩

theorem worded {f : Bool → Reader β} {word : String} (h : (f true).Takes d os avoided) :
    (optionalKeyword word >>= f).Takes d (.name word :: os) avoided := by
  intro ls rest hl hq
  have ⟨l, ls', hs, ho, hl'⟩ := List.map_eq_cons_iff.mp hl
  have ⟨a, ha⟩ := h hl' hq
  have hw : optionalKeyword word ⟨ls ++ rest, false, d⟩ = .ok (true, ⟨ls' ++ rest, false, d⟩) :=
    (bind_of_ok rfl).trans (by
      rw [hs, if_pos (by simpa using isKeyword_iff.mpr ho)]
      exact bind_of_ok advance_cons)
  exact ⟨a, by rw [bind_of_ok hw, ha]⟩

theorem unworded {f : Bool → Reader β} {word : String} (h : (f false).Takes d (o :: os) avoided) (hn : o ≠ .name word) :
    (optionalKeyword word >>= f).Takes d (o :: os) avoided := by
  intro ls rest hl hq
  have ⟨l, ls', hs, ho, hl'⟩ := List.map_eq_cons_iff.mp hl
  have ⟨a, ha⟩ := h hl hq
  have hw : optionalKeyword word ⟨ls ++ rest, false, d⟩ = .ok (false, ⟨ls ++ rest, false, d⟩) :=
    (bind_of_ok rfl).trans (by
      rw [hs, if_neg (by simpa using mt isKeyword_iff.mp (ho ▸ hn))]
      rfl)
  exact ⟨a, by rw [bind_of_ok hw, ha]⟩

end Reader.Takes

variable {xs : List γ} {out : γ → List Outline} {opening closing : TokenKind}

def Starts (avoided : List TokenKind) (os : List Outline) : Prop :=
  ∃ o ∈ os.head?, o.kind ∉ avoided

theorem Starts.follows (h : Starts avoided os) : Follows avoided avoided' (os ++ ps) := by
  have ⟨o, ho, hk⟩ := h
  have ⟨qs, hs⟩ := List.head?_eq_some_iff.mp ho
  exact hs ▸ follows_cons hk

theorem Starts.ne_nil (h : Starts avoided os) : os ≠ [] := by
  rintro rfl
  simp [Starts] at h

theorem Starts.mono (h : Starts avoided os) (ha : avoided' ⊆ avoided) : Starts avoided' os :=
  h.imp fun _ ho => ho.imp_right (mt fun hk => ha hk)

theorem follows_flatMap (h : ∀ x ∈ xs, Starts avoided (out x)) (ha : avoided ⊆ avoided') :
    Follows avoided avoided' (xs.flatMap out) := by
  cases xs
  case nil => exact follows_nil ha
  case cons x xs => exact (h x List.mem_cons_self).follows

theorem takes_item {x : γ} (hx : item.Takes d (out x) avoided) (hs : ∀ x ∈ xs, Starts (closing :: avoided) (out x))
    (hc : closing ∉ avoided) (hr : (itemsUntil closing item fuel).Takes d (xs.flatMap out ++ [mark closing]) []) :
    Reader.Takes d ((x :: xs).flatMap out ++ [mark closing]) []
      (do let a ← item; return a :: (← itemsUntil closing item fuel)) := by
  rw [List.flatMap_cons, List.append_assoc]
  refine hx.bind (fun _ => hr.map) ((follows_flatMap (fun y hy => ?_) (List.Subset.refl _)).append (follows_cons hc))
  exact (hs y hy).mono (List.subset_cons_self _ _)

theorem takes_itemsUntil (h : ∀ x ∈ xs, item.Takes d (out x) avoided) (hs : ∀ x ∈ xs, Starts (closing :: avoided) (out x))
    (hc : closing ∉ avoided) (hf : xs.length < fuel) :
    (itemsUntil closing item fuel).Takes d (xs.flatMap out ++ [mark closing]) [] := by
  induction xs generalizing fuel
  case nil =>
    have ⟨n, hn⟩ := Nat.exists_eq_add_one_of_ne_zero (Nat.ne_of_gt hf)
    subst hn
    exact .taken .pure rfl
  case cons x xs hi =>
    have ⟨n, hn⟩ := Nat.exists_eq_add_one_of_ne_zero (Nat.ne_zero_of_lt hf)
    subst hn
    have ⟨hx, hxs⟩ := List.forall_mem_cons.mp h
    have ⟨hsx, hsxs⟩ := List.forall_mem_cons.mp hs
    have hr := hi hxs hsxs (Nat.lt_of_succ_lt_succ hf)
    refine .left (takes_item hx hsxs hc hr) ?_
    rw [List.flatMap_cons, List.append_assoc]
    exact (hsx.mono (by simp)).follows

theorem takes_any (h : ∀ x ∈ xs, item.Takes d (out x) avoided) (hs : ∀ x ∈ xs, Starts (closing :: avoided) (out x))
    (hc : closing ∉ avoided) (hf : xs.length < fuel) :
    (Grammar.any fuel opening closing item).Takes d (mark opening :: (xs.flatMap out ++ [mark closing])) [] :=
  (takes_expect rfl).next fun _ => takes_itemsUntil h hs hc hf

theorem takes_optionalMany (h : ∀ x ∈ xs, item.Takes d (out x) avoided)
    (hs : ∀ x ∈ xs, Starts (closing :: avoided) (out x)) (hc : closing ∉ avoided) (hf : xs.length ≤ fuel) :
    (optionalMany fuel opening closing item).Takes d (enclosed opening closing (xs.flatMap out)) [opening] := by
  cases xs
  case nil => exact .unseen .pure (follows_nil (List.Subset.refl _))
  case cons x xs =>
    have ⟨hx, hxs⟩ := List.forall_mem_cons.mp h
    have ⟨hsx, hsxs⟩ := List.forall_mem_cons.mp hs
    have hr := takes_itemsUntil hxs hsxs hc hf
    have hn : (x :: xs).flatMap out ≠ [] := by simp [hsx.ne_nil]
    rw [enclosed, if_neg hn]
    refine .peeked (.mono ?_ (List.nil_subset _)) rfl
    exact (takes_expect rfl).next fun _ => takes_item hx hsxs hc hr

theorem length_le_flatMap (hs : ∀ x ∈ xs, Starts avoided (out x)) : xs.length ≤ (xs.flatMap out).length := by
  induction xs
  case nil => exact Nat.le_refl 0
  case cons x xs hi =>
    have ⟨hx, hxs⟩ := List.forall_mem_cons.mp hs
    have hp := List.length_pos_iff.mpr hx.ne_nil
    have hl := hi hxs
    rw [List.flatMap_cons, List.length_append, List.length_cons]
    omega

theorem length_le_of_mem (out : γ → List Outline) {x : γ} (hx : x ∈ xs) : (out x).length ≤ (xs.flatMap out).length :=
  (List.infix_of_mem_flatten (List.mem_map_of_mem hx)).length_le

theorem length_enclosed : os.length ≤ (enclosed opening closing os).length := by
  unfold enclosed
  split
  case isTrue h  => simp [h]
  case isFalse h =>
    simp only [List.length_cons, List.length_append]
    omega

end Grammar
end QueryGlean.Graphql
