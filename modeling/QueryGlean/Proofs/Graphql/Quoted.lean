import QueryGlean.Graphql.Parser
import QueryGlean.Proofs.Outcome

namespace QueryGlean.Graphql

open Outcome

variable {cs : List Char} {d : Char} {n m k point size fuel : Nat}

namespace Quoted

theorem exists_of_go (h : variableWidth?.go point size fuel cs = .ok (d, k)) :
    ∃ xs rest, cs = xs ++ rest ∧ k = size + xs.length ∧ xs.length ≤ fuel ∧
      ∀ fuel' rest', xs.length ≤ fuel' → variableWidth?.go point size fuel' (xs ++ rest') = .ok (d, k) := by
  fun_induction variableWidth?.go point size fuel cs
  case case1 | case2 | case4 | case6 => cases h
  case case3 rest hp =>
    cases h
    refine ⟨['}'], rest, rfl, rfl, by simp, fun fuel' rest' hl => ?_⟩
    have ⟨f, hf⟩ := Nat.exists_eq_add_one_of_ne_zero (Nat.ne_of_gt hl)
    simp [hf, variableWidth?.go, hp]
  case case5 fuel c cs hc v hv hi =>
    have ⟨xs, rest, he, hk, hl, hr⟩ := hi h
    refine ⟨c :: xs, rest, by rw [he]; rfl, ?_, by simpa using hl, fun fuel' rest' hl => ?_⟩
    · simp only [hk, List.length_cons]
      omega
    · have ⟨f, hf⟩ := Nat.exists_eq_add_one_of_ne_zero (Nat.ne_zero_of_lt hl)
      simp only [hf, List.cons_append, variableWidth?.go, hc, hv, if_false]
      exact hr f rest' (by simpa [hf] using hl)

theorem exists_of_variableWidth? (h : variableWidth? cs = .ok (d, k)) :
    ∃ xs rest, cs = xs ++ rest ∧ k = 3 + xs.length ∧
      ∀ rest', variableWidth? (xs ++ rest') = .ok (d, k) := by
  have ⟨xs, rest, he, hk, hl, hr⟩ := exists_of_go h
  refine ⟨xs, rest, he, hk, fun rest' => hr _ _ ?_⟩
  simp only [List.length_append]
  omega

theorem exists_of_fourDigits? (h : fourDigits? cs = some n) :
    ∃ xs rest, cs = xs ++ rest ∧ xs.length = 4 ∧ ∀ rest', fourDigits? (xs ++ rest') = some n := by
  unfold fourDigits? at h
  split at h
  case isTrue => cases h
  case isFalse hl =>
    have hx : (cs.take 4).length = 4 := by simp; omega
    refine ⟨cs.take 4, cs.drop 4, by simp, hx, fun rest' => ?_⟩
    rw [fourDigits?, if_neg (by rw [List.length_append, hx]; omega), List.take_left' hx, h]

theorem exists_of_fixedWidth? (h : fixedWidth? cs = some (d, k)) :
    ∃ xs rest, cs = xs ++ rest ∧ k = 2 + xs.length ∧ xs ≠ [] ∧
      ∀ rest', fixedWidth? (xs ++ rest') = some (d, k) := by
  unfold fixedWidth? at h
  have ⟨code, hc, h⟩ := Option.bind_eq_some_iff.mp h
  have ⟨xs, rest, he, hl, hx⟩ := exists_of_fourDigits? hc
  split at h
  case isTrue hs =>
    cases h
    refine ⟨xs, rest, he, by rw [hl], List.ne_nil_of_length_pos (by omega), fun rest' => ?_⟩
    simp [fixedWidth?, hx, hs]
  case isFalse hs =>
    rw [he, List.drop_left' hl] at h
    split at h
    case h_2 => cases h
    case h_1 rest₂ =>
      -- A high surrogate is followed by the escape of a low one.
      have ⟨low, hc₂, h⟩ := Option.bind_eq_some_iff.mp h
      have ⟨ys, rest₃, he₂, hl₂, hy⟩ := exists_of_fourDigits? hc₂
      split at h
      case isFalse => cases h
      case isTrue hp =>
        have ⟨hd', hk⟩ := Prod.mk.inj (Option.some.inj h)
        subst hd' hk
        refine ⟨xs ++ '\\' :: 'u' :: ys, rest₃, by simp [he, he₂], by simp [hl, hl₂], by simp, fun rest' => ?_⟩
        have hd : (xs ++ '\\' :: 'u' :: (ys ++ rest')).drop 4 = '\\' :: 'u' :: (ys ++ rest') :=
          List.drop_left' hl
        rw [List.append_assoc, List.cons_append, List.cons_append, fixedWidth?, hx, Option.bind_eq_bind,
          Option.bind_some, if_neg hs, hd]
        simp only [hy, Option.bind_some, if_pos hp]

-- The character behind the `u` tells the two forms apart, and belongs to the escape.
theorem exists_of_escape? (h : escape? ('\\' :: cs) = .ok (d, k)) :
    ∃ xs rest, cs = xs ++ rest ∧ k = 1 + xs.length ∧
      ∀ rest', escape? ('\\' :: (xs ++ rest')) = .ok (d, k) := by
  unfold escape? at h
  rw [List.drop_one, List.tail_cons] at h
  split at h
  case h_1 cs =>
    split at h
    case h_2 => cases h
    case h_1 hv =>
      cases h
      have ⟨xs, rest, he, hk, hx⟩ := exists_of_variableWidth? hv
      refine ⟨'u' :: '\x7b' :: xs, rest, by rw [he]; rfl, by simp [hk]; omega, fun rest' => ?_⟩
      simp [escape?, hx]
  case h_2 cs hb =>
    split at h
    case h_2 => cases h
    case h_1 hf =>
      cases h
      have ⟨xs, rest, he, hk, hn, hx⟩ := exists_of_fixedWidth? hf
      refine ⟨'u' :: xs, rest, by rw [he]; rfl, by simp [hk]; omega, fun rest' => ?_⟩
      cases xs
      case nil => exact absurd rfl hn
      case cons x xs =>
        have hx' := hx rest'
        -- A brace would make it the other form.
        have hb : x ≠ '\x7b' := fun hc => hb (xs ++ rest) (by rw [he, hc]; rfl)
        simp [escape?, hb] at hx' ⊢
        simp [hx']
  case h_3 c cs h₁ h₂ =>
    split at h
    case h_2 => cases h
    case h_1 hs =>
      cases h
      refine ⟨[c], cs, rfl, rfl, fun rest' => ?_⟩
      have hu : c ≠ 'u' := fun hc => h₂ hc
      simp [escape?, hu, hs]
  case h_4 => cases h

end Quoted

namespace Lexer

theorem exists_of_stringEnd (h : stringEnd fuel n cs = .ok m) :
    ∃ xs rest, cs = xs ++ rest ∧ m = n + xs.length ∧ 0 < xs.length ∧
      ∀ fuel' rest', xs.length ≤ fuel' → stringEnd fuel' n (xs ++ rest') = .ok m := by
  fun_induction stringEnd fuel n cs
  case case1 | case2 | case4 | case6 | case7 => cases h
  case case3 cs =>
    cases h
    refine ⟨['"'], cs, rfl, rfl, by simp, fun fuel' rest' hl => ?_⟩
    have ⟨f, hf⟩ := Nat.exists_eq_add_one_of_ne_zero (Nat.ne_of_gt hl)
    simp [hf, stringEnd]
  case case5 fuel n cs d k hq hb he hi =>
    -- The escape is read alike whatever follows it, so the rest of the string is reached alike.
    have ⟨ys, rest, hc, hk, hy⟩ := Quoted.exists_of_escape? he
    have hd : ('\\' :: cs).drop k = rest := by rw [hk, hc, Nat.add_comm]; simp
    have ⟨xs, rest₂, hr, hm, hp, hx⟩ := hi h
    rw [hd] at hr
    refine ⟨'\\' :: (ys ++ xs), rest₂, by simp [hc, hr], by simp [hm, hk]; omega, by simp, fun fuel' rest' hl => ?_⟩
    have ⟨f, hf⟩ := Nat.exists_eq_add_one_of_ne_zero (Nat.ne_zero_of_lt hl)
    have hd' : ('\\' :: (ys ++ (xs ++ rest'))).drop k = xs ++ rest' := by rw [hk, Nat.add_comm]; simp
    have hl' : xs.length ≤ f := by simp [hf] at hl; omega
    simp [hf, stringEnd, hb, hy, hd', hx f rest' hl']
  case case8 fuel n c cs hq hb hs hi =>
    have ⟨xs, rest, hr, hm, hp, hx⟩ := hi h
    refine ⟨c :: xs, rest, by rw [hr]; rfl, by simp [hm]; omega, by simp, fun fuel' rest' hl => ?_⟩
    have ⟨f, hf⟩ := Nat.exists_eq_add_one_of_ne_zero (Nat.ne_zero_of_lt hl)
    simp only [hf, List.cons_append, stringEnd, hq, hb, hs, if_false]
    exact hx f rest' (by simpa [hf] using hl)

end Lexer

end QueryGlean.Graphql
