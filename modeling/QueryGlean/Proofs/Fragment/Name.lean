import Mathlib
import QueryGlean.Proofs.Fragment.OfTree
import QueryGlean.Proofs.Graphql.Printed

namespace QueryGlean

namespace Name

open Graphql

def isWordPart (c : Char) : Bool :=
  c.isAlpha || isDecimalDigit c

-- Letters and digits are never in one word.
structure IsWord (w : List Char) : Prop where
  ne_nil : w ≠ []
  pure   : (∀ c ∈ w, c.isAlpha) ∨ ∀ c ∈ w, isDecimalDigit c

variable {c : Char} {cs w rest : List Char}

theorem IsWord.isWordPart (h : IsWord w) (hc : c ∈ w) : isWordPart c :=
  (Bool.or_eq_true _ _).mpr (h.pure.imp (· c hc) (· c hc))

theorem dropLast_append_drop (xs ys : List Char) : xs.dropLast ++ (xs ++ ys).drop (xs.length - 1) = xs ++ ys := by
  rw [List.drop_append_of_le_length (Nat.sub_le _ _), List.dropLast_eq_take, ← List.append_assoc,
    List.take_append_drop]

theorem word?_eq_some (h : word? cs = some (w, rest)) : w ++ rest = cs ∧ IsWord w := by
  have upper {c} (h : c ∈ cs.takeWhile Char.isUpper) : c.isAlpha := by
    simp [Char.isAlpha, List.mem_takeWhile_imp h]
  have small {c} (h : c ∈ (cs.dropWhile Char.isUpper).takeWhile Char.isLower) : c.isAlpha := by
    simp [Char.isAlpha, List.mem_takeWhile_imp h]
  unfold word? at h
  dsimp only at h
  split_ifs at h with hs hl hc hd <;> cases h
  case _ =>
    refine ⟨by simp, by simp [hs], .inl fun c h => ?_⟩
    exact (List.mem_append.mp h).elim upper small
  case _ =>
    have hd := dropLast_append_drop (cs.takeWhile Char.isUpper) (cs.dropWhile Char.isUpper)
    rw [List.takeWhile_append_dropWhile] at hd
    refine ⟨hd, List.ne_nil_of_length_pos ?_, .inl fun c h => upper (List.mem_of_mem_dropLast h)⟩
    rw [List.length_dropLast]
    omega
  case _ => exact ⟨by simp, hc, .inl fun c => upper⟩
  case _ => exact ⟨by simp, hd, .inr fun c => List.mem_takeWhile_imp⟩

theorem not_isWordPart_of_word? (h : word? (c :: cs) = none) : ¬isWordPart c := by
  unfold word? at h
  dsimp only at h
  split_ifs at h with hs hl hc hd
  simp only [not_not] at hs hc hd
  have hu : ¬c.isUpper := fun hu => by simp [hu] at hc
  have hl : ¬c.isLower := fun hl => by simp [hu, hl] at hs
  have hn : ¬isDecimalDigit c := fun hn => by simp [hn] at hd
  simp [isWordPart, Char.isAlpha, hu, hl, hn]

theorem flatten_wordsWithin {fuel : Nat} (h : cs.length ≤ fuel) :
    (wordsWithin fuel cs).flatten = cs.filter isWordPart := by
  fun_induction wordsWithin fuel cs
  case case1 => simp_all
  case case2 => rfl
  case case3 fuel c cs w rest hw hi =>
    have ⟨he, hw⟩ := word?_eq_some hw
    have hl : rest.length ≤ fuel := by
      have := congrArg List.length he
      have := List.length_pos_iff.mpr hw.ne_nil
      simp only [List.length_append, List.length_cons] at *
      omega
    rw [← he, List.filter_append, List.filter_eq_self.mpr fun c => hw.isWordPart, List.flatten_cons, hi hl]
  case case4 fuel c cs hw hi =>
    rw [List.filter_cons_of_neg (not_isWordPart_of_word? hw), hi (Nat.le_of_succ_le_succ h)]

theorem flatten_words (s : String) : (words s).flatten = s.toList.filter isWordPart :=
  flatten_wordsWithin (Nat.le_refl _)

theorem map_toLower_capitalize (cs : List Char) : (capitalize cs).map Char.toLower = cs.map Char.toLower := by
  cases cs <;> simp [capitalize]

theorem map_toLower_camelCase (s : String) :
    (camelCase s).toList.map Char.toLower = (s.toList.filter isWordPart).map Char.toLower := by
  rw [← flatten_words, camelCase]
  cases words s
  case nil => rfl
  case cons w ws => simp [List.flatMap_def, List.map_flatten, Function.comp_def, map_toLower_capitalize]

theorem isNameStart_toLower (c : Char) : Lexer.isNameStart c.toLower = Lexer.isNameStart c := by
  by_cases h : c.isUpper
  case pos => simp [Lexer.isNameStart, Char.isAlpha, h]
  case neg => rw [Char.toLower_eq_of_not_isUpper h]

theorem isNamePart_toLower (c : Char) : Lexer.isNamePart c.toLower = Lexer.isNamePart c := by
  by_cases h : c.isUpper
  case pos => simp [Lexer.isNamePart, Char.isAlphanum, Char.isAlpha, h]
  case neg => rw [Char.toLower_eq_of_not_isUpper h]

theorem head?_camelCase (s : String) :
    (camelCase s).toList.head?.any Lexer.isNameStart = (s.toList.filter isWordPart).head?.any Lexer.isNameStart := by
  have h := congrArg (·.head?.any Lexer.isNameStart) (map_toLower_camelCase s)
  simpa [Function.comp_def, isNameStart_toLower, Option.any_map] using h

theorem all_camelCase (s : String) :
    (camelCase s).toList.all Lexer.isNamePart = (s.toList.filter isWordPart).all Lexer.isNamePart := by
  have h := congrArg (·.all Lexer.isNamePart) (map_toLower_camelCase s)
  simpa [Function.comp_def, isNamePart_toLower] using h

theorem lt_of_isNamePart (h : Lexer.isNamePart c) : c.toNat < 128 := by
  simp [Lexer.isNamePart, Char.isAlphanum, Char.isAlpha, Char.isUpper, Char.isLower, Char.isDigit,
    UInt32.le_iff_toNat_le] at h
  rcases h with h | rfl
  case inl => omega
  case inr => decide

-- The other scripts have their digits beyond ASCII.
theorem isDigit_of_isDecimalDigit (h : isDecimalDigit c) (hp : Lexer.isNamePart c) : c.isDigit := by
  have ⟨z, hz, hc⟩ := List.any_eq_true.mp h
  have hz : z = 48 ∨ 128 ≤ z := (by decide : ∀ z ∈ digitZeros, z = 48 ∨ 128 ≤ z) z hz
  have hl := lt_of_isNamePart hp
  simp only [Bool.and_eq_true, decide_eq_true_eq] at hc
  rw [Char.isDigit_iff_toNat]
  simp
  omega

theorem isNameStart_iff_of_isWordPart (h : isWordPart c) : Lexer.isNameStart c ↔ c.isAlpha := by
  have hc : c ≠ '_' := by rintro rfl; revert h; decide
  simp [Lexer.isNameStart, hc]

theorem isNamePart_iff_of_isWordPart (h : isWordPart c) :
    Lexer.isNamePart c ↔ (isDecimalDigit c → c.isDigit) := by
  constructor
  case mp => exact fun hp hd => isDigit_of_isDecimalDigit hd hp
  case mpr =>
    intro hd
    cases (Bool.or_eq_true _ _).mp h
    case inl ha => simp [Lexer.isNamePart, Char.isAlphanum, ha]
    case inr hn => simp [Lexer.isNamePart, Char.isAlphanum, hd hn]

theorem toList_contentHash (text : String) :
    ∃ d ds, (contentHash text).toList = d :: ds ∧ ∀ c ∈ d :: ds, c.isDigit := by
  have h : (contentHash text).toList = Nat.toDigits 10 (Digest.ofText text).a.toNat := by
    simp [contentHash, toString]
  have ⟨d, ds, hd⟩ := List.exists_cons_of_ne_nil (Nat.toDigits_ne_nil (b := 10) (n := (Digest.ofText text).a.toNat))
  exact ⟨d, ds, h.trans hd, fun c hc => Nat.isDigit_of_mem_toDigits (by decide) (by decide) (hd ▸ hc)⟩

-- The hash begins no name, and does no harm behind one.
theorem isName_generate_contentHash (path text : String) :
    Graphql.isName (generate path (contentHash text)) ↔
      (path.toList.find? isWordPart).any Char.isAlpha ∧ ∀ c ∈ path.toList, isDecimalDigit c → c.isDigit := by
  have ⟨d, ds, hh, hd⟩ := toList_contentHash text
  have hs : ¬Lexer.isNameStart d := Lexer.not_isNameStart_of_isDigit (.inr (hd d List.mem_cons_self))
  have hp : ∀ c ∈ d :: ds, Lexer.isNamePart c := fun c hc => by simp [Lexer.isNamePart, Char.isAlphanum, hd c hc]
  have hl : (generate path (contentHash text)).toList = (camelCase path).toList ++ d :: ds := by
    rw [generate, String.toList_append, hh]
  -- The first character of the name is that of the path, for the hash stands at the end.
  have head : (generate path (contentHash text)).toList.head?.any Lexer.isNameStart ↔
      (path.toList.find? isWordPart).any Char.isAlpha := by
    have : ((camelCase path).toList ++ d :: ds).head?.any Lexer.isNameStart =
        (camelCase path).toList.head?.any Lexer.isNameStart := by
      cases (camelCase path).toList <;> simp [hs]
    rw [hl, this, head?_camelCase, List.head?_filter]
    cases hf : path.toList.find? isWordPart
    case none   => simp
    case some c => simpa using isNameStart_iff_of_isWordPart (List.find?_some hf)
  have all : (∀ c ∈ (generate path (contentHash text)).toList, Lexer.isNamePart c) ↔
      ∀ c ∈ path.toList, isDecimalDigit c → c.isDigit := by
    have hc := Bool.eq_iff_iff.mp (all_camelCase path)
    simp only [List.all_eq_true, List.mem_filter, and_imp] at hc
    rw [hl, List.forall_mem_append, and_iff_left hp, hc]
    refine forall₂_congr fun c _ => ?_
    constructor
    case mp =>
      intro h hd
      have hw : isWordPart c := by simp [isWordPart, hd]
      exact (isNamePart_iff_of_isWordPart hw).mp (h hw) hd
    case mpr => exact fun h hw => (isNamePart_iff_of_isWordPart hw).mpr h
  rw [isName_iff_head_and_all, head, all]

end Name

variable {m : Matcher} {src : Source} {path : String} {f : Find} {q : Query} {d : Graphql.Placed} {g : Fragment}

theorem named_of_anonymous {hash n : String} {d e : Graphql.Definition}
    (h : named path hash d = .ok (n, e)) (hd : d.name? = none) :
    n = Name.generate path hash ∧ d.named? n = some e := by
  simp only [named, hd] at h
  split at h
  case h_2 => cases h
  case h_1 hn =>
    cases h
    exact ⟨rfl, hn⟩

namespace Matcher

theorem hash_of_extract {T : TaggedTemplate} (h : m.extract src path T = .ok q) :
    q.hash = Name.contentHash (Graphql.compact (T.rawText src)) := by
  cases h ▸ m.extracts src path T
  case read => rfl

theorem exists_makes {ds : List Graphql.Placed} (h : (m.normalize src path [] f).result.toOption.isSome)
    (hp : Graphql.parse (f.template.rawText src) = .ok ds) (hd : d ∈ ds) : ∃ g, m.Makes src path f d g := by
  have ⟨gs, hr⟩ := Option.isSome_iff_exists.mp h
  have hg := gives_of_normalize (Outcome.ok_of_toOption hr)
  have ⟨q, hq, _⟩ := hg
  cases Except.ok.inj (hp ▸ parse_of_extract hq)
  have ⟨g, hf⟩ := hg.exists_fragment hq hd
  exact ⟨g, q, hq, hd, hf⟩

namespace Makes

theorem of_anonymous (h : m.Makes src path f d g) (hd : d.definition.name? = none) :
    g.contentHash = Name.contentHash (Graphql.compact (f.template.rawText src)) ∧
      g.name = Name.generate path g.contentHash ∧ d.definition.named? g.name = some g.definition := by
  have ⟨q, hq, _, hf⟩ := h
  have ⟨⟨n, e⟩, hn, _, hg⟩ := Find.fragment_eq_ok_iff.mp hf
  have ⟨h₁, h₂⟩ := named_of_anonymous hn hd
  rw [← hash_of_extract hq, hg]
  exact ⟨rfl, h₁, h₂⟩

theorem isName_iff (h : m.Makes src path f d g) (hd : d.definition.name? = none) :
    let ascii := (path.toList.find? Name.isWordPart).any Char.isAlpha ∧
      ∀ c ∈ path.toList, isDecimalDigit c → c.isDigit
    g.name = Name.generate path g.contentHash ∧ d.definition.named? g.name = some g.definition ∧
      (Graphql.isName g.name ↔ ascii) ∧
      (Graphql.TokenStream.ofString g.name = ⟨[⟨⟨.name, g.name⟩, 0⟩], none⟩ ↔ ascii) ∧
      (ascii → (Graphql.parse (Graphql.Print.definition g.definition)).toOption.isSome) := by
  obtain ⟨hc, hn, he⟩ := h.of_anonymous hd
  obtain ⟨q, hq, hm, _⟩ := h
  have ha := Name.isName_generate_contentHash path (Graphql.compact (f.template.rawText src))
  rw [← hc, ← hn] at ha
  have hv := Graphql.valid_of_parse (parse_of_extract hq) hm
  exact ⟨hn, he, ha, Graphql.ofString_eq_name_iff.trans ha, fun h => Graphql.Print.parse_named hv hd he (ha.mpr h)⟩

end Makes

end Matcher

def Graphql.Placed.anonymous (field : String) (start : Nat) : Graphql.Placed :=
  ⟨.operation none .query none [] [] [.field none field [] [] none], start⟩

theorem Matcher.Makes.isName_iff_of_capital :
    let src := Source.ofString "graphql\x60\x7ba\x7d\x60"
    let T := TaggedTemplate.spanning 0 12
    let path := "src/pages/A1.js"
    ∃ g, (Matcher.ofTree {} src T.node).Makes src path ⟨.pageQuery, T⟩ (.anonymous "a" 0) g ∧
      (Graphql.Placed.anonymous "a" 0).definition.name? = none ∧ Graphql.isName g.name ∧
      (Graphql.parse (Graphql.Print.definition g.definition)).toOption.isSome := by
  intro src T path
  have hp : Graphql.parse (T.rawText src) = .ok [.anonymous "a" 0] := by cbv
  obtain ⟨g, hm⟩ : ∃ g, (Matcher.ofTree {} src T.node).Makes src path ⟨.pageQuery, T⟩ (.anonymous "a" 0) g :=
    Matcher.exists_makes (by decide +kernel) hp List.mem_cons_self
  have ha : path.toList.all fun c => isDecimalDigit c → c.isDigit := by decide +kernel
  have hw : (path.toList.find? Name.isWordPart).any Char.isAlpha ∧ ∀ c ∈ path.toList, isDecimalDigit c → c.isDigit :=
    ⟨by decide +kernel, by simpa only [List.all_eq_true, decide_eq_true_eq] using ha⟩
  obtain ⟨_, _, hi, _, hr⟩ := hm.isName_iff rfl
  exact ⟨g, hm, rfl, hi.mpr hw, hr hw⟩

theorem not_isName_of_digits :
    let src := Source.ofString "graphql\x60\x7ba\x7d\x60"
    let T := TaggedTemplate.spanning 0 12
    ∃ g, (Matcher.ofTree {} src T.node).Makes src "404.js" ⟨.pageQuery, T⟩ (.anonymous "a" 0) g ∧
      (Graphql.Placed.anonymous "a" 0).definition.name? = none ∧
      g.name = Name.generate "404.js" g.contentHash ∧ ¬Graphql.isName g.name ∧
      ¬(Graphql.parse (Graphql.Print.definition g.definition)).toOption.isSome := by
  intro src T
  have hp : Graphql.parse (T.rawText src) = .ok [.anonymous "a" 0] := by cbv
  obtain ⟨g, hm⟩ : ∃ g, (Matcher.ofTree {} src T.node).Makes src "404.js" ⟨.pageQuery, T⟩ (.anonymous "a" 0) g :=
    Matcher.exists_makes (by decide +kernel) hp List.mem_cons_self
  obtain ⟨hh, hn, hd⟩ := hm.of_anonymous rfl
  have hs : g.name = "404Js1175206547" := by
    rw [hn, hh]
    decide +kernel
  rw [hs] at hd
  refine ⟨g, hm, rfl, hn, by rw [hs]; decide, ?_⟩
  rw [← Option.some.inj hd]
  decide +kernel

end QueryGlean
