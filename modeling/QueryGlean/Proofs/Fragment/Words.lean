import Mathlib
import QueryGlean.Proofs.Fragment.CamelCase
import QueryGlean.Proofs.Runs
import QueryGlean.Text.Lower

namespace QueryGlean.Name

-- A word in front of a text:
-- 1. capitals that no small letter follows, and no capital but one that begins a small word
-- 2. as many small letters as there are, perhaps with a capital in front
-- 3. as many digits as there are
inductive IsCut : List Char → List Char → Prop
  | capitals {w rest : List Char} : w ≠ [] → (∀ c ∈ w, c.isUpper) → Stops Char.isLower rest →
    (∀ c cs, rest = c :: cs → c.isUpper → ¬Stops Char.isLower cs) → IsCut w rest
  | small {caps w rest : List Char} : caps.length ≤ 1 → (∀ c ∈ caps, c.isUpper) → w ≠ [] →
    (∀ c ∈ w, c.isLower) → Stops Char.isLower rest → IsCut (caps ++ w) rest
  | digits {w rest : List Char} : w ≠ [] → (∀ c ∈ w, isDecimalDigit c) → Stops isDecimalDigit rest → IsCut w rest

-- The words of a text. What is no letter or digit belongs to none.
inductive Cuts : List Char → List (List Char) → Prop
  | nil : Cuts [] []
  | skip {c : Char} {cs : List Char} {ws : List (List Char)} : ¬isWordPart c → Cuts cs ws → Cuts (c :: cs) ws
  | word {w rest : List Char} {ws : List (List Char)} : IsCut w rest → Cuts rest ws → Cuts (w ++ rest) (w :: ws)

variable {c : Char} {cs w v rest caps small : List Char} {ws : List (List Char)} {fuel i : Nat}

theorem not_isDecimalDigit_of_isUpper (h : c.isUpper) : isDecimalDigit c = false :=
  not_isDecimalDigit_of_isAlpha (by simp [Char.isAlpha, h])

theorem not_isDecimalDigit_of_isLower (h : c.isLower) : isDecimalDigit c = false :=
  not_isDecimalDigit_of_isAlpha (by simp [Char.isAlpha, h])

theorem IsCut.ne_nil (h : IsCut w rest) : w ≠ [] := by
  cases h
  case capitals hn _ _ _ => exact hn
  case small hn _ _      => simp [hn]
  case digits hn _ _     => exact hn

-- Of a run of capitals before a small letter the last one begins the next word.
theorem isCut_dropLast (hl : 1 < caps.length) (hu : ∀ c ∈ caps, c.isUpper) (hs : ¬Stops Char.isLower small) :
    IsCut caps.dropLast ((caps ++ small).drop (caps.length - 1)) := by
  have hn : caps ≠ [] := List.ne_nil_of_length_pos (by omega)
  have hd : (caps ++ small).drop (caps.length - 1) = caps.getLast hn :: small := by
    rw [List.drop_append_of_le_length (by omega), List.drop_length_sub_one hn, List.singleton_append]
  have hg := hu _ (List.getLast_mem hn)
  rw [hd]
  refine .capitals (List.ne_nil_of_length_pos (by simp; omega)) (fun c hc => hu c (List.mem_of_mem_dropLast hc)) ?_ ?_
  · exact stops_cons.mpr fun h => Char.not_isUpper_of_isLower h hg
  · intro c cs he _
    exact (List.cons_eq_cons.mp he).right ▸ hs

theorem isCut_of_word? (h : word? cs = some (w, rest)) : IsCut w rest := by
  have upper : ∀ c ∈ cs.takeWhile Char.isUpper, c.isUpper := fun c => List.mem_takeWhile_imp
  have ends := stops_dropWhile Char.isUpper cs
  have he : cs.takeWhile Char.isUpper ++ cs.dropWhile Char.isUpper = cs := List.takeWhile_append_dropWhile
  unfold word? at h
  dsimp only at h
  split_ifs at h with hs hl hc hd <;> cases h
  case _ => exact .small hl upper hs (fun c => List.mem_takeWhile_imp) (stops_dropWhile _ _)
  case _ => simpa only [he] using isCut_dropLast (by omega) upper (mt stops_iff_takeWhile.mp hs)
  case _ =>
    refine .capitals hc upper (stops_iff_takeWhile.mpr (not_not.mp hs)) fun c cs he hu => ?_
    exact absurd hu (stops_cons.mp (he ▸ ends))
  case _ => exact .digits hd (fun c => List.mem_takeWhile_imp) (stops_dropWhile _ _)

theorem word?_of_capitals (hn : w ≠ []) (hu : ∀ c ∈ w, c.isUpper) (hl : Stops Char.isLower rest)
    (hr : Stops Char.isUpper rest) : word? (w ++ rest) = some (w, rest) := by
  have ht : (w ++ rest).takeWhile Char.isUpper = w := takeWhile_append_eq hu hr
  have hd : (w ++ rest).dropWhile Char.isUpper = rest := dropWhile_append_eq hu hr
  simp [word?, ht, hd, hn, stops_iff_takeWhile.mp hl]

-- The capital behind the word begins the next one.
theorem word?_of_capital_behind (hn : w ≠ []) (hu : ∀ d ∈ w ++ [c], d.isUpper) (hs : ¬Stops Char.isLower cs) :
    word? (w ++ c :: cs) = some (w, c :: cs) := by
  have hr : Stops Char.isUpper cs := by
    cases cs
    case nil       => exact stops_nil
    case cons d ds => exact stops_cons.mpr (Char.not_isUpper_of_isLower (by simpa using hs))
  have ht : (w ++ c :: cs).takeWhile Char.isUpper = w ++ [c] := by
    rw [List.append_cons, takeWhile_append_eq hu hr]
  have hd : (w ++ c :: cs).dropWhile Char.isUpper = cs := by
    rw [List.append_cons, dropWhile_append_eq hu hr]
  have hl : ¬(w ++ [c]).length ≤ 1 := by
    have := List.length_pos_iff.mpr hn
    simp
    omega
  unfold word?
  dsimp only
  rw [ht, hd, if_pos (mt stops_iff_takeWhile.mpr hs), if_neg hl]
  simp

theorem word?_of_small (hl : caps.length ≤ 1) (hu : ∀ c ∈ caps, c.isUpper) (hn : w ≠ []) (hw : ∀ c ∈ w, c.isLower)
    (hr : Stops Char.isLower rest) : word? (caps ++ w ++ rest) = some (caps ++ w, rest) := by
  have hs : Stops Char.isUpper (w ++ rest) := stops_append hn fun c hc => Char.not_isUpper_of_isLower (hw c hc)
  have ht : (caps ++ w ++ rest).takeWhile Char.isUpper = caps := by
    rw [List.append_assoc, takeWhile_append_eq hu hs]
  have hd : (caps ++ w ++ rest).dropWhile Char.isUpper = w ++ rest := by
    rw [List.append_assoc, dropWhile_append_eq hu hs]
  unfold word?
  dsimp only
  rw [ht, hd, takeWhile_append_eq hw hr, if_pos hn, if_pos hl, dropWhile_append_eq hw hr]

theorem word?_of_digits (hn : w ≠ []) (hw : ∀ c ∈ w, isDecimalDigit c) (hr : Stops isDecimalDigit rest) :
    word? (w ++ rest) = some (w, rest) := by
  have hu : Stops Char.isUpper (w ++ rest) :=
    stops_append hn fun c hc h => by simpa [not_isDecimalDigit_of_isUpper h] using hw c hc
  have hl : Stops Char.isLower (w ++ rest) :=
    stops_append hn fun c hc h => by simpa [not_isDecimalDigit_of_isLower h] using hw c hc
  unfold word?
  dsimp only
  rw [hu.dropWhile_eq, stops_iff_takeWhile.mp hu, stops_iff_takeWhile.mp hl, takeWhile_append_eq hw hr,
    dropWhile_append_eq hw hr]
  simp [hn]

-- What is in front of a text as a word, its scanner finds there.
theorem IsCut.word?_append (h : IsCut w rest) : word? (w ++ rest) = some (w, rest) := by
  cases h
  case small hl hu hn hw hr => exact word?_of_small hl hu hn hw hr
  case digits hn hw hr      => exact word?_of_digits hn hw hr
  case capitals hn hu hl hb =>
    by_cases hr : Stops Char.isUpper rest
    case pos => exact word?_of_capitals hn hu hl hr
    case neg =>
      obtain ⟨c, cs, rfl⟩ : ∃ c cs, rest = c :: cs := List.exists_cons_of_ne_nil fun he => hr (he ▸ stops_nil)
      have hc : c.isUpper := by simpa using hr
      have hw : ∀ d ∈ w ++ [c], d.isUpper := List.forall_mem_append.mpr ⟨hu, by simpa using hc⟩
      exact word?_of_capital_behind hn hw (hb c cs rfl hc)

theorem cuts_wordsWithin (h : cs.length ≤ fuel) : Cuts cs (wordsWithin fuel cs) := by
  fun_induction wordsWithin fuel cs
  case case1 => exact List.eq_nil_of_length_eq_zero (Nat.le_zero.mp h) ▸ .nil
  case case2 => exact .nil
  case case3 fuel c cs w rest hw hi =>
    have hc := isCut_of_word? hw
    have hl := congrArg List.length (word?_eq_some hw).left
    have := List.length_pos_iff.mpr hc.ne_nil
    simp only [List.length_append, List.length_cons] at hl h
    exact (word?_eq_some hw).left ▸ .word hc (hi (by omega))
  case case4 hw hi => exact .skip (not_isWordPart_of_word? hw) (hi (Nat.le_of_succ_le_succ h))

theorem Cuts.wordsWithin_eq (h : Cuts cs ws) (hf : cs.length ≤ fuel) : wordsWithin fuel cs = ws := by
  induction h generalizing fuel
  case nil => cases fuel <;> rfl
  case skip c cs ws hc _ hi =>
    cases fuel
    case zero => simp at hf
    case succ fuel =>
      have hw : word? (c :: cs) = none := by
        refine Option.eq_none_iff_forall_ne_some.mpr fun (w, rest) h => hc ?_
        have ⟨he, hw⟩ := word?_eq_some h
        have ⟨d, ds, hd⟩ := List.exists_cons_of_ne_nil hw.ne_nil
        rw [hd, List.cons_append] at he
        exact (List.cons_eq_cons.mp he).left ▸ hw.isWordPart (hd ▸ List.mem_cons_self)
      rw [wordsWithin, hw, hi (Nat.le_of_succ_le_succ hf)]
  case word w rest ws hw _ hi =>
    have hs := hw.word?_append
    have ⟨c, cs, he⟩ := List.exists_cons_of_ne_nil hw.ne_nil
    rw [he, List.cons_append] at hs hf ⊢
    cases fuel
    case zero => simp at hf
    case succ fuel =>
      have hr : rest.length ≤ fuel := by
        simp only [List.length_cons, List.length_append] at hf
        omega
      simp only [wordsWithin, hs, hi hr]

theorem cuts_iff (s : String) (ws : List (List Char)) : Cuts s.toList ws ↔ ws = words s :=
  ⟨fun h => (h.wordsWithin_eq (Nat.le_refl _)).symm, fun h => h ▸ cuts_wordsWithin (Nat.le_refl _)⟩

-- No run of capitals reaches into a run of digits.
theorem last_lt_or_lt_first :
    ∀ z ∈ digitZeros, ∀ r ∈ capitalRuns.toList, r.last < z ∨ z + 9 < r.first := by
  decide +kernel

theorem not_holds_of_isDecimalDigit {r : CapitalRun} (h : isDecimalDigit c) (hr : r ∈ capitalRuns) :
    ¬r.holds c.toNat := by
  have ⟨z, hz, hc⟩ := List.any_eq_true.mp h
  have hd := last_lt_or_lt_first z hz r (Array.mem_toList_iff.mpr hr)
  simp only [Bool.and_eq_true, decide_eq_true_eq] at hc
  simp only [CapitalRun.holds, Bool.and_eq_true, decide_eq_true_eq]
  omega

-- Digits have no case, whatever their script.
theorem lowerChar_of_isDecimalDigit (h : isDecimalDigit c) : lowerChar c = [c.toLower] := by
  have hl : c.toLower = c :=
    Char.toLower_eq_of_not_isUpper fun hu => by simp [not_isDecimalDigit_of_isUpper hu] at h
  have hr : capitalRuns.find? (·.holds c.toNat) = none :=
    Array.find?_eq_none.mpr fun r => not_holds_of_isDecimalDigit h
  have hi : c ≠ '\u0130' := by rintro rfl; revert h; decide
  rw [lowerChar, if_neg hi, hr, hl, ite_self]

theorem lowerChar_of_isWordPart (h : isWordPart c) : lowerChar c = [c.toLower] := by
  cases (Bool.or_eq_true _ _).mp h
  case inl ha =>
    have hn := lt_of_isNamePart (c := c) (by simp [Graphql.Lexer.isNamePart, Char.isAlphanum, ha])
    exact if_pos hn
  case inr hd => exact lowerChar_of_isDecimalDigit hd

theorem lower_of_forall_isWordPart (h : ∀ c ∈ cs, isWordPart c) : lower cs = cs.map Char.toLower := by
  rw [lower, List.flatMap_congr fun c hc => lowerChar_of_isWordPart (h c hc), ← List.map_eq_flatMap]

theorem isWordPart_toLower (c : Char) : isWordPart c.toLower = isWordPart c := by
  simp [isWordPart]

theorem isWordPart_of_mem_camelCase {s : String} (h : c ∈ (camelCase s).toList) : isWordPart c := by
  have hm : c.toLower ∈ (s.toList.filter isWordPart).map Char.toLower :=
    map_toLower_camelCase s ▸ List.mem_map_of_mem h
  obtain ⟨d, hd, he⟩ := List.mem_map.mp hm
  rw [← isWordPart_toLower, ← he, isWordPart_toLower]
  exact (List.mem_filter.mp hd).right

theorem lower_camelCase (s : String) : lower (camelCase s).toList = lower (s.toList.filter isWordPart) := by
  rw [lower_of_forall_isWordPart fun c => isWordPart_of_mem_camelCase, map_toLower_camelCase,
    lower_of_forall_isWordPart fun c hc => (List.mem_filter.mp hc).right]

theorem lowerChar_ne_iff (h : isWordPart c) : lowerChar c ≠ [c] ↔ c.isUpper := by
  rw [lowerChar_of_isWordPart h, ne_eq, List.singleton_inj]
  refine ⟨fun hl => ?_, fun hu hl => ?_⟩
  · exact of_not_not (mt Char.toLower_eq_of_not_isUpper hl)
  · exact absurd hu (hl ▸ by simp)

theorem not_isUpper_map_toLower : ¬(w.map Char.toLower)[i]?.any Char.isUpper := by
  cases h : w[i]? <;> simp [h]

theorem isUpper_capitalize_iff (hw : IsWord w) : (capitalize w)[i]?.any Char.isUpper ↔ i = 0 ∧ ¬isNumber w := by
  cases w
  case nil => exact absurd rfl hw.ne_nil
  case cons c cs =>
    cases i
    case zero   => simp [capitalize, hw.isAlpha_eq List.mem_cons_self]
    case succ i => simpa [capitalize] using not_isUpper_map_toLower (w := cs) (i := i)

-- The word with a number is one of letters and begins at a place, behind the words in front of it.
def Begins (ws : List (List Char)) (k i : Nat) : Prop :=
  ∃ w, ws[k]? = some w ∧ ¬isNumber w ∧ i = (ws.take k).flatten.length

theorem begins_zero : Begins (w :: ws) 0 i ↔ i = 0 ∧ ¬isNumber w := by
  simp [Begins, and_comm]

theorem begins_succ {k : Nat} : Begins (w :: ws) (k + 1) i ↔ w.length ≤ i ∧ Begins ws k (i - w.length) := by
  simp only [Begins, List.getElem?_cons_succ, List.take_succ_cons, List.flatten_cons, List.length_append]
  constructor
  case mp =>
    intro ⟨v, hv, hn, hi⟩
    exact ⟨by omega, v, hv, hn, by omega⟩
  case mpr =>
    intro ⟨hl, v, hv, hn, hi⟩
    exact ⟨v, hv, hn, by omega⟩

theorem exists_begins_cons :
    (∃ k, Begins (w :: ws) k i) ↔ (i = 0 ∧ ¬isNumber w) ∨ w.length ≤ i ∧ ∃ k, Begins ws k (i - w.length) := by
  rw [← Nat.or_exists_add_one, begins_zero]
  simp only [begins_succ, exists_and_left]

theorem length_capitalize (w : List Char) : (capitalize w).length = w.length := by
  cases w <;> simp [capitalize]

theorem isUpper_flatten_capitalize_iff (h : ∀ w ∈ ws, IsWord w) :
    (ws.map capitalize).flatten[i]?.any Char.isUpper ↔ ∃ k, Begins ws k i := by
  induction ws generalizing i
  case nil => simp [Begins]
  case cons w ws hi =>
    have ⟨hw, hs⟩ := List.forall_mem_cons.mp h
    have := List.length_pos_iff.mpr hw.ne_nil
    rw [List.map_cons, List.flatten_cons, exists_begins_cons]
    by_cases hl : i < w.length
    case pos =>
      rw [List.getElem?_append_left (by rwa [length_capitalize]), isUpper_capitalize_iff hw]
      exact (or_iff_left fun ⟨hn, _⟩ => by omega).symm
    case neg =>
      have hn : ¬(i = 0 ∧ ¬isNumber w) := fun ⟨hn, _⟩ => by omega
      rw [List.getElem?_append_right (by rw [length_capitalize]; omega), length_capitalize, hi hs,
        or_iff_right hn, and_iff_right (by omega)]

theorem isUpper_flatten_cased_iff (h : ∀ w ∈ ws, IsWord w) :
    (cased ws).flatten[i]?.any Char.isUpper ↔ ∃ k, Begins ws (k + 1) i := by
  cases ws
  case nil => simp [cased, Begins]
  case cons w ws =>
    have hs := (List.forall_mem_cons.mp h).right
    rw [cased, List.flatten_cons]
    simp only [begins_succ, exists_and_left]
    by_cases hl : i < w.length
    case pos =>
      rw [List.getElem?_append_left (by simpa using hl)]
      exact iff_of_false not_isUpper_map_toLower fun h => Nat.not_le_of_lt hl h.left
    case neg =>
      rw [List.getElem?_append_right (by simpa using hl), List.length_map, isUpper_flatten_capitalize_iff hs,
        and_iff_right (by omega)]

theorem camelCase_exact (s : String) :
    (∀ ws, Cuts s.toList ws ↔ ws = words s) ∧
    lower (camelCase s).toList = lower (s.toList.filter isWordPart) ∧
    ∀ i, (∃ c, (camelCase s).toList[i]? = some c ∧ lowerChar c ≠ [c]) ↔ ∃ k, Begins (words s) (k + 1) i := by
  refine ⟨cuts_iff s, lower_camelCase s, fun i => ?_⟩
  have hu : (∃ c, (camelCase s).toList[i]? = some c ∧ lowerChar c ≠ [c]) ↔
      (camelCase s).toList[i]?.any Char.isUpper := by
    rw [Option.any_eq_true]
    refine exists_congr fun c => and_congr_right fun hc => ?_
    exact lowerChar_ne_iff (isWordPart_of_mem_camelCase (List.mem_of_getElem? hc))
  rw [hu, camelCase_eq, String.toList_ofList]
  exact isUpper_flatten_cased_iff fun w => isWord_of_mem_words

end QueryGlean.Name
