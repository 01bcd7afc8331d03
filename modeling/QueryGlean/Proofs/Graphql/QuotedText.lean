import QueryGlean.Proofs.Graphql.Lexer

namespace QueryGlean.Graphql

namespace Quoted

variable {c : Char} {cs rest : List Char} {n k fuel : Nat}

theorem hexValue?_upperHexDigit (h : k < 16) : hexValue? (upperHexDigit k) = some k := by
  have : ∀ k < 16, hexValue? (upperHexDigit k) = some k := by decide
  exact this k h

theorem escape?_control (h : n < 256) :
    escape? ('\\' :: 'u' :: '0' :: '0' :: upperHexDigit (n / 16) :: upperHexDigit (n % 16) :: rest) =
      .ok (Char.ofNat n, 6) := by
  have h₁ := hexValue?_upperHexDigit (Nat.div_lt_of_lt_mul (by omega) : n / 16 < 16)
  have h₂ := hexValue?_upperHexDigit (Nat.mod_lt n (by decide) : n % 16 < 16)
  have hz : hexValue? '0' = some 0 := by decide
  have hn : fourDigits? ('0' :: '0' :: upperHexDigit (n / 16) :: upperHexDigit (n % 16) :: rest) = some n := by
    simp [fourDigits?, hexNumber?, hz, h₁, h₂]
    omega
  have hs : isScalarValue n := by simp [isScalarValue]; omega
  simp [escape?, fixedWidth?, hn, hs]

theorem stringEnd_printChar :
    Lexer.stringEnd (fuel + 1) n (printChar c ++ rest) = Lexer.stringEnd fuel (n + (printChar c).length) rest := by
  unfold printChar
  dsimp only
  repeat' split
  case _ | _ | _ | _ | _ | _ | _ => simp [Lexer.stringEnd, escape?, simple?, Lexer.isBreak]
  case _ h => simp [Lexer.stringEnd, escape?_control (by omega : c.toNat < 256), Lexer.isBreak]
  case _ hq hb _ _ hn _ hr _ => simp [Lexer.stringEnd, hq, hb, Lexer.isBreak, hn, hr]

theorem exists_cons_printChar (c : Char) : ∃ d ds, printChar c = d :: ds ∧ d ≠ '"' ∧ '\n' ∉ d :: ds := by
  unfold printChar
  dsimp only
  repeat' split
  case _ | _ | _ | _ | _ | _ | _ => exact ⟨_, _, rfl, by decide, by decide⟩
  case _ h =>
    have hd : ∀ k < 16, upperHexDigit k ≠ '\n' := by decide
    have h₁ := hd (c.toNat / 16) (by omega)
    have h₂ := hd (c.toNat % 16) (by omega)
    exact ⟨_, _, rfl, by decide, by simp [h₁.symm, h₂.symm]⟩
  case _ hq _ _ _ hn _ _ _ => exact ⟨c, [], rfl, hq, by simpa [eq_comm] using hn⟩

theorem stringEnd_print (hf : (cs.flatMap printChar).length < fuel) :
    Lexer.stringEnd fuel n (cs.flatMap printChar ++ '"' :: rest) = .ok (n + (cs.flatMap printChar).length + 1) := by
  obtain ⟨f, hs⟩ := Nat.exists_eq_add_one_of_ne_zero (Nat.ne_zero_of_lt hf)
  subst hs
  induction cs generalizing f n
  case nil => simp [Lexer.stringEnd]
  case cons c cs hi =>
    obtain ⟨d, ds, hc, _⟩ := exists_cons_printChar c
    have hl : (printChar c).length = ds.length + 1 := by rw [hc, List.length_cons]
    simp only [List.flatMap_cons, List.length_append] at hf ⊢
    obtain ⟨g, hg⟩ := Nat.exists_eq_add_one_of_ne_zero (show f ≠ 0 by omega)
    subst hg
    rw [List.append_assoc, stringEnd_printChar, hi g (by omega)]
    congr 1
    omega

theorem spells_print (text : String) :
    ∃ xs, (print text).toList = '"' :: xs ∧ '\n' ∉ xs ∧ Lexer.Spells .string '"' xs := by
  refine ⟨text.toList.flatMap printChar ++ ['"'], by simp [print], ?_, .string ?_ (by simp) fun fuel rest hf => ?_⟩
  · simp only [List.mem_append, List.mem_flatMap, List.mem_singleton, not_or, not_exists, not_and]
    refine ⟨fun c _ hn => ?_, by decide⟩
    have ⟨d, ds, hc, _, hd⟩ := exists_cons_printChar c
    exact hd (hc ▸ hn)
  · intro ys he
    cases hs : text.toList
    case nil => simp [hs] at he
    case cons c cs =>
      have ⟨d, ds, hc, hd, _⟩ := exists_cons_printChar c
      simp only [hs, List.flatMap_cons, hc, List.cons_append, List.cons_eq_cons] at he
      exact hd he.left
  · rw [List.length_append, List.length_singleton] at hf ⊢
    rw [List.append_assoc, List.singleton_append, stringEnd_print hf, Nat.add_assoc]

end Quoted
end QueryGlean.Graphql
