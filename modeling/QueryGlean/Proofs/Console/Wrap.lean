import Mathlib
import QueryGlean.Console.Wrap
import QueryGlean.Proofs.Runs

namespace QueryGlean.Console

def linesOf (text : List Char) : List (List Char) :=
  splitWhere (· = '\n') text

-- A line that may stand in so many cells as it is. If it has more characters than that, blanks at its end are lost.
structure Fits (limit : ℕ) (line : List Char) : Prop where
  untabbed : '\t' ∉ line
  narrow   : width line ≤ limit
  whole    : line.length ≤ limit ∨ Stops isBlank line.reverse

-- There is room for a part of a text: in each of its lines, or in those where the part stands if it is in one line.
def HasRoom (limit : ℕ) (text part : List Char) : Prop :=
  (∀ line ∈ linesOf text, Fits limit line) ∨
    '\n' ∉ part ∧ ∀ line ∈ linesOf text, part <:+: line → Fits limit line

def written (ls : List (List Char)) : List Char :=
  ls.flatMap (· ++ ['\n'])

variable {c : Char} {cs ds line text part : List Char} {ws : List (List Char)} {last : Option Char}
variable {limit filled fuel : ℕ} {o : Overflow} {p q : Char → Bool}

theorem splitWhere_eq_splitOnP (p : Char → Bool) (text : List Char) : splitWhere p text = text.splitOnP p := by
  induction text
  case nil => simp [splitWhere]
  case cons c text hi =>
    rw [splitWhere, hi, List.splitOnP_cons_eq_if_modifyHead]
    split
    case isTrue  => rfl
    case isFalse => cases hs : text.splitOnP p <;> simp_all [List.modifyHead]

theorem splitWhere_append_cons (h : p c) : splitWhere p (cs ++ c :: ds) = splitWhere p cs ++ splitWhere p ds := by
  simp only [splitWhere_eq_splitOnP, List.splitOnP_append_cons _ _ h]

theorem splitWhere_of_forall (h : ∀ c ∈ cs, p c = false) : splitWhere p cs = [cs] := by
  rw [splitWhere_eq_splitOnP, List.splitOnP_eq_singleton h]

theorem splitWhere_induction {motive : List Char → Prop} (p : Char → Bool)
    (one  : ∀ cs, (∀ c ∈ cs, p c = false) → motive cs)
    (more : ∀ cs c rest, (∀ c ∈ cs, p c = false) → p c → motive rest → motive (cs ++ c :: rest))
    (text : List Char) : motive text := by
  induction hl : text.length using Nat.strong_induction_on generalizing text
  case h n hi =>
    obtain ⟨rest, he, hs⟩ := exists_takeWhile (!p ·) text
    have hn : ∀ c ∈ text.takeWhile (!p ·), p c = false := fun c hc => by simpa using List.mem_takeWhile_imp hc
    rw [he]
    cases rest
    case nil => rw [List.append_nil]; exact one _ hn
    case cons c rest =>
      have hlt : rest.length < n := by
        rw [← hl, he, List.length_append, List.length_cons]
        omega
      exact more _ c rest hn (by simpa using hs) (hi _ hlt rest rfl)

theorem mem_splitWhere_of_imp (h : line ∈ splitWhere p text) (hp : ∀ c, p c → q c) (hq : ∀ c ∈ line, q c = false) :
    line ∈ splitWhere q text := by
  induction text using splitWhere_induction p
  case one cs hn =>
    rw [splitWhere_of_forall hn, List.mem_singleton] at h
    subst h
    rw [splitWhere_of_forall hq]
    exact List.mem_singleton_self _
  case more cs c rest hn hc hi =>
    rw [splitWhere_append_cons hc, splitWhere_of_forall hn, List.singleton_append] at h
    rw [splitWhere_append_cons (hp c hc), List.mem_append]
    rcases List.mem_cons.mp h with rfl | h
    case inl =>
      rw [splitWhere_of_forall hq]
      exact .inl (List.mem_singleton_self _)
    case inr => exact .inr (hi h)

theorem exists_infix_of_infix (h : part <:+: text) (hp : ∀ c ∈ part, p c = false) :
    ∃ line ∈ splitWhere p text, part <:+: line := by
  induction text using splitWhere_induction p
  case one cs hn => exact ⟨cs, by simp [splitWhere_of_forall hn], h⟩
  case more cs c rest hn hc hi =>
    rw [splitWhere_append_cons hc, splitWhere_of_forall hn, List.singleton_append]
    have start {r : List Char} (hr : r <+: c :: rest) (hn : ∀ c ∈ r, p c = false) : r = [] := by
      cases r
      case nil => rfl
      case cons d r =>
        obtain rfl : d = c := (List.cons_prefix_cons.mp hr).left
        simp [hn d List.mem_cons_self] at hc
    rcases List.infix_append_iff.mp h with h | h | ⟨l, r, rfl, hl, hr⟩
    case inl => exact ⟨cs, List.mem_cons_self, h⟩
    case inr.inl =>
      rcases List.infix_cons_iff.mp h with h | h
      case inl => exact ⟨cs, List.mem_cons_self, start h hp ▸ List.nil_infix⟩
      case inr =>
        obtain ⟨line, hm, hl⟩ := hi h
        exact ⟨line, List.mem_cons_of_mem _ hm, hl⟩
    case inr.inr =>
      rw [start hr fun c hc => hp c (List.mem_append_right l hc), List.append_nil]
      exact ⟨cs, List.mem_cons_self, hl.isInfix⟩

theorem written_linesOf (text : List Char) : written (linesOf text) = text ++ ['\n'] := by
  unfold linesOf
  induction text using splitWhere_induction (· = '\n')
  case one cs hn => simp [splitWhere_of_forall hn, written]
  case more cs c rest hn hc hi =>
    rw [splitWhere_append_cons hc, splitWhere_of_forall hn, List.singleton_append]
    rw [written] at hi ⊢
    rw [List.flatMap_cons, hi]
    simp_all

theorem widthBehind_joined (last : Option Char) (c : Char) (cs : List Char) :
    widthBehind last (joiner :: c :: cs) = widthBehind last cs := by
  rw [widthBehind, if_pos rfl]

theorem widthBehind_selector (last : Option Char) (cs : List Char) :
    widthBehind last (pictureSelector :: cs) = (if last.any isWidened then 1 else 0) + widthBehind none cs := by
  have hj : pictureSelector ≠ joiner := by decide
  cases cs <;> simp [widthBehind, hj]

theorem widthBehind_empty (hj : c ≠ joiner) (hs : c ≠ pictureSelector) (hc : cells c = 0) :
    widthBehind last (c :: cs) = widthBehind last cs := by
  cases cs <;> simp [widthBehind, hj, hs, hc]

theorem widthBehind_filled (hj : c ≠ joiner) (hs : c ≠ pictureSelector) (hc : cells c ≠ 0) :
    widthBehind last (c :: cs) = cells c + widthBehind (some c) cs := by
  cases cs <;> simp [widthBehind, hj, hs, hc]

theorem widthBehind_none_le (last : Option Char) (cs : List Char) : widthBehind none cs ≤ widthBehind last cs := by
  fun_induction widthBehind last cs
  case case1 => rw [widthBehind]
  case case2 => rw [widthBehind, if_pos rfl]
  case case3 hi => rwa [widthBehind_joined]
  case case4 hi =>
    rw [widthBehind_selector]
    simp
  case case5 hj hs hc hi => rwa [widthBehind_empty hj hs hc]
  case case6 hj hs hc hi => rw [widthBehind_filled hj hs hc]

-- A text takes no fewer cells for what stands behind it.
theorem widthBehind_le_append (last : Option Char) (cs ds : List Char) :
    widthBehind last cs ≤ widthBehind last (cs ++ ds) := by
  fun_induction widthBehind last cs
  case case1 => exact Nat.zero_le _
  case case2 => exact Nat.zero_le _
  case case3 hi => rwa [List.cons_append, List.cons_append, widthBehind_joined]
  case case4 hi =>
    rw [List.cons_append, widthBehind_selector]
    exact Nat.add_le_add_left hi _
  case case5 hj hs hc hi => rwa [List.cons_append, widthBehind_empty hj hs hc]
  case case6 hj hs hc hi =>
    rw [List.cons_append, widthBehind_filled hj hs hc]
    exact Nat.add_le_add_left hi _

theorem width_le_of_isPrefix (h : cs <+: ds) : width cs ≤ width ds := by
  obtain ⟨rest, rfl⟩ := h
  exact widthBehind_le_append none cs rest

theorem widthBehind_add_width_le (last : Option Char) (ds : List Char) (h : ¬ [joiner] <:+ cs) :
    widthBehind last cs + width ds ≤ widthBehind last (cs ++ ds) := by
  fun_induction widthBehind last cs
  case case1 => simpa [width] using widthBehind_none_le _ ds
  case case2 => exact absurd List.suffix_rfl h
  case case3 d cs hi =>
    rw [List.cons_append, List.cons_append, widthBehind_joined]
    exact hi fun hs => h (hs.trans (List.suffix_append [joiner, d] cs))
  case case4 cs _ hi =>
    rw [List.cons_append, widthBehind_selector, Nat.add_assoc]
    exact Nat.add_le_add_left (hi fun hs => h (hs.trans (List.suffix_cons _ cs))) _
  case case5 c cs hj hs hc hi =>
    rw [List.cons_append, widthBehind_empty hj hs hc]
    exact hi fun hs => h (hs.trans (List.suffix_cons _ cs))
  case case6 c cs hj hs hc hi =>
    rw [List.cons_append, widthBehind_filled hj hs hc, Nat.add_assoc]
    exact Nat.add_le_add_left (hi fun hs => h (hs.trans (List.suffix_cons _ cs))) _

theorem width_add_le (ds : List Char) (h : ¬ [joiner] <:+ cs) : width cs + width ds ≤ width (cs ++ ds) :=
  widthBehind_add_width_le none ds h

theorem trimEnd_isPrefix (cs : List Char) : trimEnd cs <+: cs := by
  have h := List.reverse_prefix.mpr (List.dropWhile_suffix (l := cs.reverse) isBlank)
  rwa [List.reverse_reverse] at h

-- A line is blank, or a word with the blanks around it stands in front of the next word.
theorem words_cases (fuel : ℕ) (line : List Char) :
    (∀ c ∈ line, isBlank c) ∧ words (fuel + 1) line = [] ∨ ∃ w rest, line = w ++ rest ∧ (¬ ∀ c ∈ w, isBlank c) ∧
      words (fuel + 1) line = w :: words fuel rest ∧
        (rest ≠ [] → ¬ Stops isBlank w.reverse ∧ ¬ ∀ c ∈ rest, isBlank c) := by
  -- The blanks in front of the word, the word, and the blanks behind it.
  let before := line.takeWhile isBlank
  let rest := line.dropWhile isBlank
  let body := rest.takeWhile (!isBlank ·)
  let behind := rest.dropWhile (!isBlank ·)
  let after := behind.takeWhile isBlank
  have he : line = before ++ body ++ after ++ behind.dropWhile isBlank := by
    simp only [before, rest, body, behind, after, List.append_assoc, List.takeWhile_append_dropWhile]
  by_cases hb : body = []
  case pos =>
    have hr : rest = [] := (stops_dropWhile isBlank line).eq_nil (stops_iff_takeWhile.mpr hb)
    exact .inl ⟨List.dropWhile_eq_nil_iff.mp hr, if_pos hb⟩
  case neg =>
    have hw : ¬ ∀ c ∈ before ++ body ++ after, isBlank c := by
      intro h
      obtain ⟨c, hc⟩ := List.exists_mem_of_ne_nil body hb
      have hn := List.mem_takeWhile_imp hc
      rw [h c (by simp [hc])] at hn
      cases hn
    refine .inr ⟨before ++ body ++ after, behind.dropWhile isBlank, he, hw, if_neg hb, fun hn => ⟨?_, ?_⟩⟩
    case refine_1 =>
      intro hs
      rw [List.reverse_append] at hs
      have ha : after.reverse = [] := (hs.of_isPrefix (List.prefix_append _ _)).eq_nil_of_forall fun c hc =>
        List.mem_takeWhile_imp (List.mem_reverse.mp hc)
      -- A word without blanks behind it is at the end of the line.
      have hs : Stops isBlank behind := stops_iff_takeWhile.mpr (List.reverse_eq_nil_iff.mp ha)
      have hb : behind = [] := hs.eq_nil (stops_dropWhile (!isBlank ·) rest)
      exact hn (by rw [hb, List.dropWhile_nil])
    case refine_2 => exact fun h => hn ((stops_dropWhile isBlank behind).eq_nil_of_forall h)

theorem words_of_blank (fuel : ℕ) (h : ∀ c ∈ line, isBlank c) : words fuel line = [] := by
  cases fuel
  case zero => rfl
  case succ fuel =>
    rcases words_cases fuel line with ⟨_, he⟩ | ⟨w, rest, rfl, hn, _⟩
    case inl => exact he
    case inr => exact absurd (fun c hc => h c (List.mem_append_left rest hc)) hn

theorem words_spec (hf : line.length < fuel) (hb : ¬ ∀ c ∈ line, isBlank c) :
    (words fuel line).flatten = line ∧ ((words fuel line).map width).sum ≤ width line := by
  induction fuel generalizing line
  case zero => exact absurd hf (Nat.not_lt_zero _)
  case succ fuel hi =>
    rcases words_cases fuel line with ⟨h, _⟩ | ⟨w, rest, rfl, hn, he, hr⟩
    case inl => exact absurd h hb
    case inr =>
      rw [he, List.flatten_cons, List.map_cons, List.sum_cons]
      by_cases hrn : rest = []
      case pos =>
        subst hrn
        simp [words_of_blank]
      case neg =>
        have ⟨hs, hb⟩ := hr hrn
        have hl := List.length_pos_of_ne_nil (l := w) (by rintro rfl; simp at hn)
        rw [List.length_append] at hf
        obtain ⟨hfl, hsum⟩ := hi (by omega) hb
        refine ⟨by rw [hfl], (Nat.add_le_add_left hsum _).trans (width_add_le rest fun hj => hs ?_)⟩
        obtain ⟨before, rfl⟩ := hj
        simp
        decide

theorem fill_of_le (h : filled + (ws.map width).sum ≤ limit) : fill limit o line filled ws = [line ++ ws.flatten] := by
  induction ws generalizing line filled
  case nil => simp [fill]
  case cons w ws hi =>
    rw [List.map_cons, List.sum_cons] at h
    have hw := width_le_of_isPrefix (trimEnd_isPrefix w)
    rw [fill, if_pos (by omega), hi (by omega), List.flatten_cons, List.append_assoc]

theorem expandTabs_of_not_mem (h : '\t' ∉ cs) : expandTabs part cs = part.reverse ++ cs := by
  induction cs generalizing part
  case nil => simp [expandTabs]
  case cons c cs hi =>
    have ⟨hc, hcs⟩ := not_or.mp (mt List.mem_cons.mpr h)
    rw [expandTabs, if_neg (Ne.symm hc), hi hcs]
    simp

namespace Fits

theorem mono {limit' : ℕ} (h : Fits limit line) (hl : limit ≤ limit') : Fits limit' line where
  untabbed := h.untabbed
  narrow   := h.narrow.trans hl
  whole    := h.whole.imp_left (·.trans hl)

theorem cropBlanks (h : Fits limit line) : cropBlanks limit line = line := by
  unfold Console.cropBlanks
  dsimp only
  rcases h.whole with h | h
  case inl => rw [Nat.sub_eq_zero_of_le h, Nat.min_zero, Nat.sub_zero, List.take_length]
  case inr => rw [stops_iff_takeWhile.mp h, List.length_nil, Nat.zero_min, Nat.sub_zero, List.take_length]

theorem wrapLine (h : Fits limit line) (o : Overflow) : wrapLine limit o line = [line] := by
  have ht : expandTabs [] line = line := expandTabs_of_not_mem h.untabbed
  have hl : (if words (line.length + 1) line = [] then [line]
      else fill limit o [] 0 (words (line.length + 1) line)) = [line] := by
    split
    case isTrue => rfl
    case isFalse hn =>
      have hb : ¬ ∀ c ∈ line, isBlank c := fun h => hn (words_of_blank _ h)
      obtain ⟨hfl, hsum⟩ := words_spec (Nat.lt_succ_self _) hb
      rw [fill_of_le (by rw [Nat.zero_add]; exact hsum.trans h.narrow), hfl, List.nil_append]
  unfold Console.wrapLine
  dsimp only
  rw [ht, hl, List.map_singleton, h.cropBlanks]
  simp [crop, h.narrow]

theorem mem_wrap (h : Fits limit line) (o : Overflow) (hl : line ∈ linesOf text) : line ∈ wrap limit o text :=
  List.mem_flatMap.mpr ⟨line, hl, by rw [h.wrapLine]; exact List.mem_singleton_self _⟩

end Fits

theorem wrap_of_fits (h : ∀ line ∈ linesOf text, Fits limit line) (o : Overflow) : wrap limit o text = linesOf text := by
  rw [wrap, ← linesOf, List.flatMap_congr fun line hl => (h line hl).wrapLine o, List.flatMap_singleton']

theorem infix_written {ls : List (List Char)} (h : part <:+: line) (hl : line ∈ ls) : part <:+: written ls := by
  have hm : line ++ ['\n'] ∈ ls.map (· ++ ['\n']) := List.mem_map_of_mem hl
  rw [written, List.flatMap_def]
  exact (h.trans (List.prefix_append _ _).isInfix).trans (List.infix_of_mem_flatten hm)

theorem infix_written_wrap (h : part <:+: text) (hr : HasRoom limit text part) (o : Overflow) :
    part <:+: written (wrap limit o text) := by
  rcases hr with hf | ⟨hn, hf⟩
  case inl =>
    rw [wrap_of_fits hf, written_linesOf]
    exact h.trans (List.prefix_append _ _).isInfix
  case inr =>
    obtain ⟨line, hl, hp⟩ := exists_infix_of_infix (p := (· = '\n')) h fun c hc =>
      decide_eq_false fun he => hn (he ▸ hc)
    exact infix_written hp ((hf line hl hp).mem_wrap o hl)

end QueryGlean.Console
