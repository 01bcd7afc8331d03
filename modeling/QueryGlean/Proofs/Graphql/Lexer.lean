import QueryGlean.Proofs.Graphql.Number
import QueryGlean.Proofs.Graphql.Quoted

namespace QueryGlean.Graphql

open Outcome

namespace Lexer

inductive Spells : TokenKind → Char → List Char → Prop
  | mark {k c} (h : TokenKind.ofChar? c = some k) : Spells k c []
  | spread : Spells .spread '.' ['.', '.']
  | name {c xs} (hc : isNameStart c) (hx : ∀ x ∈ xs, isNamePart x) : Spells .name c xs
  | number {c xs b} (h : IsNumber (c :: xs) b) : Spells (if b then .float else .int) c xs
  | string {xs} (hq : ∀ ys, xs ≠ '"' :: '"' :: ys) (hl : 0 < xs.length)
    (hx : ∀ fuel rest, xs.length ≤ fuel → stringEnd fuel 1 (xs ++ rest) = .ok (1 + xs.length)) :
    Spells .string '"' xs
  | block {xs} (hx : ∀ rest, blockEnd 3 (xs ++ rest) = .ok (3 + xs.length)) :
    Spells .blockString '"' ('"' :: '"' :: xs)

variable {c : Char} {cs xs rest : List Char} {n m : Nat} {k : TokenKind} {b : Bool}

def runsOn (c : Char) : Bool :=
  isNumberPart c || c == '"'

theorem exists_of_blockEnd (h : blockEnd n cs = .ok m) :
    ∃ xs rest, cs = xs ++ rest ∧ m = n + xs.length ∧ 3 ≤ xs.length ∧
      ∀ rest', blockEnd n (xs ++ rest') = .ok m := by
  fun_induction blockEnd n cs
  case case1 => cases h
  case case2 cs hi =>
    have ⟨xs, rest, he, hm, _, hx⟩ := hi h
    exact ⟨'\\' :: '"' :: '"' :: '"' :: xs, rest, by simp [he], by simp [hm]; omega, by simp, hx⟩
  case case3 cs =>
    cases h
    exact ⟨['"', '"', '"'], cs, rfl, rfl, by simp, fun rest' => by simp [blockEnd]⟩
  case case4 c cs h₁ h₂ hi =>
    have ⟨xs, rest, he, hm, hl, hx⟩ := hi h
    refine ⟨c :: xs, rest, by simp [he], by simp [hm]; omega, by simp; omega, fun rest' => ?_⟩
    match xs, hl with
    | x :: y :: z :: xs, _ =>
      rw [List.cons_append, blockEnd.eq_4, hx rest']
      · intro cs' hc hs
        simp only [List.cons_append, List.cons.injEq] at hs
        exact h₁ (xs ++ rest) hc (by simp [he, hs])
      · intro cs' hc hs
        simp only [List.cons_append, List.cons.injEq] at hs
        exact h₂ (z :: xs ++ rest) hc (by simp [he, hs])

theorem IsNumber.exists_cons (h : IsNumber cs b) : ∃ c xs, cs = c :: xs ∧ (c = '-' ∨ c.isDigit) := by
  have ⟨sign, w, f, e, hx, hs, hw, _⟩ := h
  cases hs
  case inl hs =>
    subst hs
    cases hw
    case inl hw => exact ⟨'0', f ++ e, by simp [hx, hw], .inr rfl⟩
    case inr hw =>
      have ⟨d, ds, hd, hi⟩ := hw.left.exists_cons
      exact ⟨d, ds ++ (f ++ e), by simp [hx, hd], .inr hi⟩
  case inr hs =>
    have ⟨c, hc, hm⟩ := hs
    exact ⟨c, w ++ (f ++ e), by simp [hx, hc], .inl (by simpa using hm)⟩

-- What measuring comes to, by the first character. All others are refused, and nothing is quoted then but the
-- character and digits behind it.
inductive Measures (c : Char) (cs : List Char) : Except (Fault × Nat) (TokenKind × Nat) → Prop
  | mark {k : TokenKind} (mark : TokenKind.ofChar? c = some k) : Measures c cs (.ok (k, 1))
  | name (start : isNameStart c) : Measures c cs (.ok (.name, 1 + (cs.takeWhile isNamePart).length))
  | number {n : Nat} {b : Bool} (digits : number (c :: cs) = .ok (n, b)) :
      Measures c cs (.ok (if b then .float else .int, n))
  | badNumber {e : Fault × Nat} (digits : number (c :: cs) = .error e) : Measures c cs (.error e)
  | block {rest : List Char} {n : Nat} (quote : c = '"') (opened : cs = '"' :: '"' :: rest)
      (closed : blockEnd 3 rest = .ok n) : Measures c cs (.ok (.blockString, n))
  | badBlock {rest : List Char} {e : Fault × Nat} (broken : blockEnd 3 rest = .error e) : Measures c cs (.error e)
  | string {n : Nat} (quote : c = '"') (opened : ∀ rest, cs ≠ '"' :: '"' :: rest)
      (closed : stringEnd (cs.length + 1) 1 cs = .ok n) : Measures c cs (.ok (.string, n))
  | badString {e : Fault × Nat} (broken : stringEnd (cs.length + 1) 1 cs = .error e) : Measures c cs (.error e)
  | spread {rest : List Char} (dot : c = '.') (dots : cs = '.' :: '.' :: rest) : Measures c cs (.ok (.spread, 3))
  | doubleDot : Measures c cs (.error (.doubleDot, 0))
  | leadingDot : Measures c cs (.error (.leadingDot (String.ofList (cs.takeWhile Char.isDigit)), 0))
  | singleQuote : Measures c cs (.error (.singleQuote, 0))
  | stray : Measures c cs (.error (.unexpectedCharacter (showChar? (some c)), 0))

theorem measures (c : Char) (cs : List Char) : Measures c cs (measure c cs) := by
  unfold measure
  split
  case h_1 hk => exact .mark hk
  case h_2 =>
    -- One test after the other, each where those before it have failed.
    by_cases hn : isNameStart c
    case pos =>
      rw [if_pos hn]
      exact .name hn
    rw [if_neg hn]
    by_cases hd : c = '-' ∨ c.isDigit
    case pos =>
      rw [if_pos hd]
      cases h : number (c :: cs)
      case error => exact .badNumber h
      case ok r  => exact .number h
    rw [if_neg hd]
    by_cases hq : c = '"'
    case pos =>
      rw [if_pos hq]
      split
      case h_1 rest =>
        cases h : blockEnd 3 rest
        case error => exact .badBlock h
        case ok    => exact .block hq rfl h
      case h_2 ho =>
        cases h : stringEnd (cs.length + 1) 1 cs
        case error => exact .badString h
        case ok    => exact .string hq ho h
    rw [if_neg hq]
    split
    case h_1 => exact .spread rfl rfl
    case h_2 => exact .doubleDot
    case h_3 =>
      split
      case isTrue  => exact .leadingDot
      case isFalse => exact .stray
    case h_4 =>
      split
      case isTrue  => exact .singleQuote
      case isFalse => exact .stray

theorem exists_of_measure (h : measure c cs = .ok (k, n)) :
    ∃ xs rest, cs = xs ++ rest ∧ n = 1 + xs.length ∧ Spells k c xs := by
  cases h ▸ measures c cs
  case mark hk => exact ⟨[], cs, rfl, rfl, .mark hk⟩
  case name hs =>
    have ⟨rest, he, _⟩ := exists_takeWhile isNamePart cs
    exact ⟨_, rest, he, rfl, .name hs fun c hc => List.all_eq_true.mp List.all_takeWhile c hc⟩
  case number hn =>
    have ⟨ys, rest, he, hy, _, hl⟩ := exists_of_number hn
    have ⟨x, xs, hx, _⟩ := hy.exists_cons
    subst hx
    have ⟨hc, hs⟩ := List.cons_eq_cons.mp he
    subst hc
    exact ⟨xs, rest, hs, by simp [hl]; omega, .number hy⟩
  case block hc ho hb =>
    have ⟨xs, rest, he, hm, _, hx⟩ := exists_of_blockEnd hb
    subst hc
    exact ⟨'"' :: '"' :: xs, rest, by simp [ho, he], by simp [hm]; omega, .block fun rest' => hm ▸ hx rest'⟩
  case string hc ho hs =>
    have ⟨xs, rest, he, hm, hl, hx⟩ := exists_of_stringEnd hs
    subst hc
    refine ⟨xs, rest, he, hm, .string (fun ys hy => ?_) hl fun fuel rest' hf => hm ▸ hx fuel rest' hf⟩
    exact ho (ys ++ rest) (by simp [he, hy])
  case spread rest hc hd =>
    subst hc
    exact ⟨['.', '.'], rest, hd, rfl, .spread⟩

theorem ofChar?_of_isNameStart (h : isNameStart c) : TokenKind.ofChar? c = none := by
  unfold TokenKind.ofChar?
  split <;> first | rfl | simp [isNameStart] at h

theorem ofChar?_of_isDigit (h : c = '-' ∨ c.isDigit) : TokenKind.ofChar? c = none := by
  unfold TokenKind.ofChar?
  split <;> first | rfl | simp at h

theorem not_isDigit_of_isAlpha (h : c.isAlpha) : ¬c.isDigit := by
  intro hd
  have below : c.val ≤ '9'.val := of_decide_eq_true ((Bool.and_eq_true _ _).mp hd).right
  have above : 'A'.val ≤ c.val := by
    cases (Bool.or_eq_true _ _).mp h
    case inl h => exact And.left (of_decide_eq_true h)
    case inr h => exact UInt32.le_trans (by decide) (of_decide_eq_true ((Bool.and_eq_true _ _).mp h).left)
  exact absurd (UInt32.le_trans above below) (by decide)

theorem not_isNameStart_of_isDigit (h : c = '-' ∨ c.isDigit) : ¬isNameStart c := by
  cases h
  case inl h => subst h; decide
  case inr h =>
    intro hs
    cases (Bool.or_eq_true _ _).mp hs
    case inl hs => exact not_isDigit_of_isAlpha hs h
    case inr hs =>
      rw [beq_iff_eq.mp hs] at h
      cases h

theorem runsOn_of_isNamePart (h : isNamePart c) : runsOn c := by
  simp only [isNamePart, Char.isAlphanum, runsOn, isNumberPart, isNameStart, Bool.or_eq_true] at h ⊢
  grind

theorem measure_quote (cs : List Char) :
    measure '"' cs = match cs with
      | '"' :: '"' :: cs => do return (.blockString, ← blockEnd 3 cs)
      | _ => do return (.string, ← stringEnd (cs.length + 1) 1 cs) :=
  rfl

theorem measure_append (h : Spells k c xs) (hr : k.isPunctuator ∨ Stops runsOn rest) :
    measure c (xs ++ rest) = .ok (k, 1 + xs.length) := by
  cases h
  case mark h => simp only [measure, h, List.length_nil, Nat.add_zero, pure, Except.pure]
  case spread => rfl
  case name hc hx =>
    have hr : Stops isNamePart rest := (hr.resolve_left (by decide)).mono fun _ => runsOn_of_isNamePart
    simp only [measure, ofChar?_of_isNameStart hc, hc, takeWhile_append_eq hx hr, if_true, pure, Except.pure]
  case number b h =>
    have ⟨_, _, he, hc⟩ := h.exists_cons
    cases he
    have hr : Stops isNumberPart rest :=
      (hr.resolve_left (by cases b <;> decide)).mono fun c h => by simp [runsOn, h]
    have hn : number (c :: (xs ++ rest)) = .ok (1 + xs.length, b) := by
      rw [Nat.add_comm]
      exact number_append h hr
    simp only [measure, ofChar?_of_isDigit hc, not_isNameStart_of_isDigit hc, hc, hn, if_true, if_false,
      Bool.false_eq_true, bind, Except.bind, pure, Except.pure]
  case string hq hl hx =>
    have hr := hr.resolve_left (by decide)
    -- A quote behind an empty string would make it open a block string.
    have hn : ∀ ys, xs ++ rest ≠ '"' :: '"' :: ys := by
      intro ys he
      match xs, hl, he with
      | [_], _, he => cases rest <;> simp_all [runsOn]
      | x :: y :: xs, _, he =>
        simp only [List.cons_append, List.cons.injEq] at he
        exact hq xs (by rw [he.left, he.right.left])
    have hs := hx ((xs ++ rest).length + 1) rest (by rw [List.length_append]; omega)
    rw [measure_quote]
    split
    case h_1 ys he => exact absurd he (hn ys)
    case h_2 => rw [hs]; rfl
  case block xs hx =>
    have hl : 3 + xs.length = 1 + ('"' :: '"' :: xs).length := by
      simp only [List.length_cons]
      omega
    calc
      measure '"' ('"' :: '"' :: (xs ++ rest)) = do return (.blockString, ← blockEnd 3 (xs ++ rest)) := rfl
      _ = .ok (.blockString, 3 + xs.length) := by rw [hx]; rfl
      _ = .ok (.blockString, 1 + ('"' :: '"' :: xs).length) := by rw [hl]

theorem Spells.not_isIgnored (h : Spells k c xs) : ¬isIgnored c ∧ c ≠ '#' := by
  have hs : (TokenKind.ofChar? c).isSome ∨ isNameStart c ∨ (c = '-' ∨ c.isDigit) ∨ c = '.' ∨ c = '"' := by
    cases h
    case mark h    => simp [h]
    case name hc _ => simp [hc]
    case number h =>
      have ⟨_, _, he, hc⟩ := h.exists_cons
      cases he
      exact .inr <| .inr <| .inl hc
    case spread | string | block => simp
  constructor
  case left =>
    simp only [isIgnored, Bool.or_eq_true, beq_iff_eq]
    rintro (((((rfl | rfl) | rfl) | rfl) | rfl) | rfl) <;> revert hs <;> decide
  case right => rintro rfl; revert hs; decide

theorem scan_append {i fuel : Nat} (h : Spells k c xs) (hr : k.isPunctuator ∨ Stops runsOn rest) :
    scan (fuel + 1) i (c :: (xs ++ rest)) =
      let rest := scan fuel (i + (1 + xs.length)) rest
      { rest with tokens := ⟨⟨k, String.ofList (c :: xs)⟩, i⟩ :: rest.tokens } := by
  have ⟨hi, hc⟩ := h.not_isIgnored
  rw [scan, if_neg hi, if_neg hc, measure_append h hr, Nat.add_comm 1]
  simp

end Lexer

def Lexeme.Spelled (l : Lexeme) : Prop :=
  ∃ c xs, l.spelling.toList = c :: xs ∧ Lexer.Spells l.kind c xs

theorem Lexer.spelled_of_mem_scan {i fuel : Nat} {t : Token} (h : t ∈ (scan fuel i cs).tokens) :
    t.toLexeme.Spelled := by
  fun_induction scan fuel i cs
  case case1 | case2 | case5 => cases h
  case case3 hi => exact hi h
  case case4 hi => exact hi h
  case case6 hm _ hi =>
    cases List.mem_cons.mp h
    case inr h => exact hi h
    case inl h =>
      have ⟨xs, rest, he, hn, hs⟩ := exists_of_measure hm
      subst h
      exact ⟨_, xs, by simp [he, hn, Nat.add_comm 1], hs⟩

theorem TokenStream.spelled_ofString {text : String} {l : Lexeme}
    (h : l ∈ (ofString text).tokens.map (·.toLexeme)) : l.Spelled := by
  have ⟨t, ht, hl⟩ := List.mem_map.mp h
  exact hl ▸ Lexer.spelled_of_mem_scan ht

end QueryGlean.Graphql
