import QueryGlean.Proofs.Graphql.Lexemes

namespace QueryGlean.Graphql

inductive IsIgnored : List Char → Prop
  | nil : IsIgnored []
  | mark {c : Char} {cs : List Char} : Lexer.isIgnored c → IsIgnored cs → IsIgnored (c :: cs)
  | comment {xs cs : List Char} : (∀ c ∈ xs, ¬Lexer.isBreak c) → Stops (! Lexer.isBreak ·) cs → IsIgnored cs →
    IsIgnored ('#' :: (xs ++ cs))

variable {text : String} {cs : List Char} {fuel i : Nat}

theorem Lexer.scan_of_isIgnored (h : IsIgnored cs) (hf : cs.length ≤ fuel) : scan fuel i cs = ⟨[], none⟩ := by
  induction h generalizing fuel i
  case nil => cases fuel <;> rfl
  case mark c cs hc _ hi =>
    cases fuel
    case zero      => simp at hf
    case succ fuel => rw [scan, if_pos hc, hi (Nat.le_of_succ_le_succ hf)]
  case comment xs cs hx hs _ hi =>
    cases fuel
    case zero      => simp at hf
    case succ fuel =>
      have ht : (xs ++ cs).takeWhile (! isBreak ·) = xs := takeWhile_append_eq (by simpa using hx) hs
      have hl : cs.length ≤ fuel := by
        simp only [List.length_cons, List.length_append] at hf
        omega
      rw [scan, if_neg (by decide), if_pos rfl]
      dsimp only
      rw [ht, List.drop_left, hi hl]

theorem Lexer.isIgnored_of_scan (h : scan fuel i cs = ⟨[], none⟩) (hf : cs.length ≤ fuel) : IsIgnored cs := by
  fun_induction scan fuel i cs
  case case1 => exact List.eq_nil_of_length_eq_zero (Nat.le_zero.mp hf) ▸ .nil
  case case2 => exact .nil
  case case3 hc hi => exact .mark hc (hi h (Nat.le_of_succ_le_succ hf))
  case case4 fuel i cs comment _ hi =>
    obtain ⟨rest, hc, hs⟩ := exists_takeWhile (! isBreak ·) cs
    have hd : cs.drop comment.length = rest := by
      rw [hc]
      exact List.drop_left
    have hx : ∀ c ∈ comment, ¬isBreak c := fun c hm => by
      simpa using List.all_eq_true.mp List.all_takeWhile c hm
    have hl : (cs.drop comment.length).length ≤ fuel := by
      simp only [List.length_drop, List.length_cons] at *
      omega
    exact hc ▸ .comment hx hs (hd ▸ hi h hl)
  case case5 => cases h
  case case6 => cases h

theorem isIgnored_iff : IsIgnored text.toList ↔ TokenStream.ofString text = ⟨[], none⟩ :=
  have hf : text.toList.length ≤ text.length + 1 := Nat.le_succ _
  ⟨fun h => Lexer.scan_of_isIgnored h hf, fun h => Lexer.isIgnored_of_scan h hf⟩

-- The grammar asks for a definition where the text is at its end.
theorem parse_of_isIgnored (h : IsIgnored text.toList) :
    parse text = .error ⟨.unexpected (Grammar.describe []), text.length⟩ := by
  rw [parse, isIgnored_iff.mp h]
  rfl

end QueryGlean.Graphql
