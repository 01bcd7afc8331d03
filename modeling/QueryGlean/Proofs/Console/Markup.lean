import Mathlib
import QueryGlean.Console.Markup
import QueryGlean.Proofs.Runs

namespace QueryGlean.Markup

-- Each bracket has something behind it with which no tag starts.
def isInert : List Char → Bool
  | [] => true
  | c :: cs => (c != '[' || cs.head?.any (!startsTag ·)) && isInert cs

def Inert (s : String) : Prop :=
  isInert s.toList

instance : DecidablePred Inert :=
  fun s => inferInstanceAs (Decidable (isInert s.toList))

def IsTagContent (content : List Char) : Prop :=
  (∃ c cs, content = c :: cs ∧ startsTag c) ∧ ∀ d ∈ content, d ≠ ']' ∧ d ≠ '['

-- A tag stands in the text, or what would be one without a backslash in front.
def HasTag (cs : List Char) : Prop :=
  ∃ before content rest, cs = before ++ '[' :: (content ++ ']' :: rest) ∧ IsTagContent content

def messageStyles : List String :=
  ["bold", "red", "yellow"]

def styled (style : String) (label rest : List Char) : List Char :=
  '[' :: (style.toList ++ ']' :: (label ++ '[' :: ('/' :: style.toList ++ ']' :: rest)))

variable {c : Char} {cs ds acc content inner rest more slashes label : List Char} {fuel fuel' : ℕ}
variable {ps : List Piece} {ts : List OpenTag} {style : String}

theorem isInert_cons : isInert (c :: cs) ↔ (c = '[' → ∃ d ds, cs = d :: ds ∧ startsTag d = false) ∧ isInert cs := by
  cases cs <;> simp [isInert, Decidable.imp_iff_not_or]

theorem isInert_append (h : isInert cs) (h' : isInert ds) : isInert (cs ++ ds) := by
  induction cs
  case nil => exact h'
  case cons c cs hi =>
    rw [isInert_cons] at h
    rw [List.cons_append, isInert_cons]
    refine ⟨fun hc => ?_, hi h.right⟩
    obtain ⟨d, es, rfl, hd⟩ := h.left hc
    exact ⟨d, es ++ ds, rfl, hd⟩

theorem isInert_of_not_mem (h : '[' ∉ cs) : isInert cs := by
  induction cs
  case nil => rfl
  case cons c cs hi =>
    rw [List.mem_cons, not_or] at h
    exact isInert_cons.mpr ⟨fun he => absurd he.symm h.left, hi h.right⟩

theorem isInert_of_suffix (h : isInert ds) (hs : cs <:+ ds) : isInert cs := by
  obtain ⟨before, rfl⟩ := hs
  induction before
  case nil => exact h
  case cons c before hi => exact hi (isInert_cons.mp h).right

theorem not_mem_append {s t : String} (hs : '[' ∉ s.toList) (ht : '[' ∉ t.toList) : '[' ∉ (s ++ t).toList := by
  rw [String.toList_append, List.mem_append, not_or]
  exact ⟨hs, ht⟩

theorem Inert.of_not_mem {s : String} (h : '[' ∉ s.toList) : Inert s :=
  isInert_of_not_mem h

theorem Inert.append {s t : String} (hs : Inert s) (ht : Inert t) : Inert (s ++ t) := by
  rw [Inert, String.toList_append]
  exact isInert_append hs ht

theorem isDigit_of_mem_toDigits {n : ℕ} (h : c ∈ Nat.toDigits 10 n) : c.isDigit :=
  Nat.isDigit_of_mem_toDigits (by decide) (by decide) h

theorem isDigit_of_mem_toString {n : ℤ} (h : c ∈ (toString n).toList) : c = '-' ∨ c.isDigit := by
  cases n
  case ofNat n   => exact .inr <| isDigit_of_mem_toDigits (n := n) (by simpa [toString, Int.repr] using h)
  case negSucc n =>
    have h : c = '-' ∨ c ∈ Nat.toDigits 10 (n + 1) := by simpa [toString, Int.repr] using h
    exact h.imp_right isDigit_of_mem_toDigits

theorem not_mem_toString (n : ℤ) : '[' ∉ (toString n).toList :=
  fun h => absurd (isDigit_of_mem_toString h) (by decide)

theorem tag?_eq_none (h : startsTag c = false) : tag? (c :: cs) = none := by
  simp only [tag?, h]
  split <;> rfl

theorem tag?_of_isInert (h : isInert ('[' :: cs)) : tag? cs = none := by
  obtain ⟨d, ds, rfl, hd⟩ := (isInert_cons.mp h).left rfl
  exact tag?_eq_none hd

theorem tag?_append (hc : startsTag c) (hn : ∀ d ∈ cs, d ≠ ']' ∧ d ≠ '[') :
    tag? (c :: cs ++ ']' :: rest) = some (c :: cs, rest) := by
  have ht : (cs ++ ']' :: rest).takeWhile (fun d => d != ']' && d != '[') = cs :=
    takeWhile_append_eq (by simpa using hn) (stops_cons.mpr (by simp))
  simp [tag?, ht, hc]

theorem tag?_eq_some_iff : tag? cs = some (content, rest) ↔ cs = content ++ ']' :: rest ∧ IsTagContent content := by
  constructor
  case mp =>
    intro h
    cases cs
    case nil => cases h
    case cons c cs =>
      simp only [tag?] at h
      split at h
      case h_2 => cases h
      case h_1 behind he =>
        split at h
        case isFalse => cases h
        case isTrue hc =>
          obtain ⟨rfl, rfl⟩ := Prod.mk.inj (Option.some.inj h)
          have hw := List.takeWhile_append_dropWhile (p := fun d => d != ']' && d != '[') (l := cs)
          -- The content goes as far as it can, so a closing bracket stands right behind it.
          have hd : cs.dropWhile (fun d => d != ']' && d != '[') = ']' :: behind := by
            have hl := @List.drop_left _ (cs.takeWhile fun d => d != ']' && d != '[')
              (cs.dropWhile fun d => d != ']' && d != '[')
            rw [hw] at hl
            exact hl.symm.trans he
          refine ⟨?_, ⟨c, _, rfl, hc⟩, List.forall_mem_cons.mpr ⟨?_, fun d hd => ?_⟩⟩
          · rw [List.cons_append, ← hd, hw]
          · constructor <;> (rintro rfl; revert hc; decide)
          · simpa using List.mem_takeWhile_imp hd
  case mpr =>
    rintro ⟨rfl, ⟨c, cs, rfl, hc⟩, hn⟩
    exact tag?_append hc (List.forall_mem_cons.mp hn).right

theorem HasTag.append_left (h : HasTag ds) (cs : List Char) : HasTag (cs ++ ds) := by
  obtain ⟨before, content, rest, rfl, hc⟩ := h
  exact ⟨cs ++ before, content, rest, by simp, hc⟩

theorem HasTag.append_right (h : HasTag cs) (ds : List Char) : HasTag (cs ++ ds) := by
  obtain ⟨before, content, rest, rfl, hc⟩ := h
  exact ⟨before, content, rest ++ ds, by simp, hc⟩

theorem hasTag_bracket : HasTag ('[' :: cs) ↔ (tag? cs).isSome ∨ HasTag cs := by
  constructor
  case mp =>
    rintro ⟨before, content, rest, he, hc⟩
    cases before
    case nil =>
      cases he
      exact .inl <| by simp [tag?_eq_some_iff.mpr ⟨rfl, hc⟩]
    case cons b before =>
      cases he
      exact .inr ⟨before, content, rest, rfl, hc⟩
  case mpr =>
    rintro (h | h)
    case inl =>
      obtain ⟨⟨content, rest⟩, h⟩ := Option.isSome_iff_exists.mp h
      obtain ⟨rfl, hc⟩ := tag?_eq_some_iff.mp h
      exact ⟨[], content, rest, rfl, hc⟩
    case inr => exact h.append_left ['[']

theorem tag?_eq_none_of_not_hasTag (h : ¬ HasTag ('[' :: cs)) : tag? cs = none := by
  rw [hasTag_bracket, not_or] at h
  simpa using h.left

theorem hasTag_cons (h : c ≠ '[') : HasTag (c :: cs) ↔ HasTag cs := by
  constructor
  case mp =>
    rintro ⟨before, content, rest, he, hc⟩
    cases before
    case nil              => exact absurd (List.cons.inj he).left h
    case cons b before    => exact ⟨before, content, rest, (List.cons.inj he).right, hc⟩
  case mpr => exact fun ht => ht.append_left [c]

theorem hasTag_append (h : '[' ∉ cs) : HasTag (cs ++ ds) ↔ HasTag ds := by
  induction cs
  case nil => rfl
  case cons c cs hi =>
    rw [List.mem_cons, not_or] at h
    rw [List.cons_append, hasTag_cons (Ne.symm h.left), hi h.right]

theorem not_hasTag_of_isInert (h : isInert cs) : ¬ HasTag cs := by
  rintro ⟨before, content, rest, rfl, hc⟩
  have hi : isInert ('[' :: (content ++ ']' :: rest)) := isInert_of_suffix h (List.suffix_append _ _)
  have ht := tag?_of_isInert hi
  rw [tag?_eq_some_iff.mpr ⟨rfl, hc⟩] at ht
  cases ht

theorem not_hasTag_of_not_mem (h : '[' ∉ cs) : ¬ HasTag cs :=
  not_hasTag_of_isInert (isInert_of_not_mem h)

theorem not_hasTag_nil : ¬ HasTag [] :=
  not_hasTag_of_not_mem List.not_mem_nil

-- An opening bracket stands before each closing one, so that no tag of a text in front reaches into this one.
def Opens (more : List Char) : Prop :=
  ∀ before after, more = before ++ ']' :: after → '[' ∈ before

theorem opens_of_slashes (hs : ∀ c ∈ slashes, c = '\\') : Opens slashes := by
  rintro before after rfl
  simpa using hs ']' (by simp)

theorem opens_bracket (inner : List Char) (hs : ∀ c ∈ slashes, c = '\\') : Opens (slashes ++ '[' :: inner) := by
  intro before after he
  rcases List.append_eq_append_iff.mp he with ⟨mid, rfl, hm⟩ | ⟨mid, rfl, _⟩
  case inl =>
    cases mid
    case nil        => simp at hm
    case cons d mid => exact List.mem_append_right _ <| (List.cons.inj hm).left ▸ List.mem_cons_self
  case inr hm =>
    cases mid
    case nil        => simp at hm
    case cons d mid => simpa [← (List.cons.inj hm).left] using hs d (by simp)

theorem tag?_append_eq_none (h : tag? cs = none) (hm : Opens more) : tag? (cs ++ more) = none := by
  by_contra hn
  obtain ⟨⟨content, rest⟩, ht⟩ := Option.ne_none_iff_exists'.mp hn
  obtain ⟨he, hc⟩ := tag?_eq_some_iff.mp ht
  rcases List.append_eq_append_iff.mp he with ⟨mid, rfl, hm'⟩ | ⟨mid, rfl, hm'⟩
  case inl => exact (hc.right '[' (List.mem_append_right _ (hm mid rest hm'))).right rfl
  case inr =>
    cases mid
    case nil => simpa using hm [] rest hm'.symm
    case cons d mid =>
      obtain ⟨rfl, _⟩ := List.cons.inj hm'
      rw [tag?_eq_some_iff.mpr ⟨rfl, hc⟩] at h
      cases h

theorem cut_of_ne (hb : c ≠ '[') (hs : c ≠ '\\') : cut acc (fuel + 1) (c :: cs) = cut (c :: acc) fuel cs := by
  simp [cut, hb, hs]

theorem cut_slashes (hs : ∀ c ∈ slashes, c = '\\') (hn : slashes ≠ []) (hc : Stops (· = '\\') cs)
    (hb : cs.head? ≠ some '[') : cut acc (fuel + 1) (slashes ++ cs) = cut (slashes.reverse ++ acc) fuel cs := by
  have ht := takeWhile_append_eq (by simpa using hs) hc
  have hd := dropWhile_append_eq (by simpa using hs) hc
  obtain ⟨d, ds, rfl⟩ := List.exists_cons_of_ne_nil hn
  obtain rfl := hs d List.mem_cons_self
  rw [List.cons_append] at ht hd ⊢
  rw [cut, if_pos (.inr rfl), ht, hd]
  dsimp only
  split
  case h_1 => exact absurd rfl hb
  case h_2 => rfl

-- What becomes of a bracket and the backslashes in front of it.
theorem cut_bracket (hs : ∀ c ∈ slashes, c = '\\') : cut acc (fuel + 1) (slashes ++ '[' :: cs) =
    match tag? cs with
    | none => cut ('[' :: (slashes.reverse ++ acc)) fuel cs
    | some (content, rest) => .text acc.reverse :: .text (List.replicate (slashes.length / 2) '\\') ::
        (if slashes.length % 2 = 1 then .text ('[' :: content ++ [']']) else .tag content) :: cut [] fuel rest := by
  have hb : Stops (· = '\\') ('[' :: cs) := stops_cons.mpr (by simp)
  have ht := takeWhile_append_eq (by simpa using hs) hb
  have hd := dropWhile_append_eq (by simpa using hs) hb
  have hc : ∃ d ds, slashes ++ '[' :: cs = d :: ds ∧ (d = '[' ∨ d = '\\') := by
    cases slashes
    case nil       => exact ⟨_, _, rfl, .inl rfl⟩
    case cons d ds => exact ⟨_, _, rfl, .inr (hs d List.mem_cons_self)⟩
  obtain ⟨d, ds, he, hb⟩ := hc
  rw [he] at ht hd ⊢
  cases hg : tag? cs
  case none => simp [cut, hb, ht, hd, hg]
  case some p => by_cases hp : slashes.length % 2 = 1 <;> simp [cut, hb, ht, hd, hg, hp]

theorem cut_nil (acc : List Char) (fuel : ℕ) : cut acc fuel [] = [.text acc.reverse] := by
  cases fuel <;> rfl

-- How cutting goes on: over backslashes to the end, to a bracket with the backslashes in front of it, or over text.
theorem cut_cases (cs : List Char) :
    (∀ c ∈ cs, c = '\\') ∨ (∃ slashes ds, (∀ c ∈ slashes, c = '\\') ∧ cs = slashes ++ '[' :: ds) ∨
      ∃ before ds, before ≠ [] ∧ '[' ∉ before ∧ cs = before ++ ds ∧
        ∀ acc fuel more, cut acc (fuel + 1) (cs ++ more) = cut (before.reverse ++ acc) fuel (ds ++ more) := by
  have hw : cs.takeWhile (· = '\\') ++ cs.dropWhile (· = '\\') = cs := List.takeWhile_append_dropWhile
  have hs : ∀ c ∈ cs.takeWhile (· = '\\'), c = '\\' := fun c hc => by simpa using List.mem_takeWhile_imp hc
  generalize cs.takeWhile (· = '\\') = slashes at hw hs
  cases hd : cs.dropWhile (· = '\\')
  case nil => exact .inl <| by rwa [← hw, hd, List.append_nil]
  case cons d ds =>
    have hst : Stops (· = '\\') (d :: ds) := hd ▸ stops_dropWhile _ cs
    have hne : d ≠ '\\' := by simpa using hst
    rw [hd] at hw
    by_cases hb : d = '['
    case pos => exact .inr <| .inl ⟨slashes, ds, hs, by rw [← hw, hb]⟩
    case neg =>
      refine .inr <| .inr ?_
      by_cases he : slashes = []
      case pos =>
        subst he
        exact ⟨[d], ds, by simp, by simpa using Ne.symm hb, hw.symm, fun acc fuel more => hw ▸ cut_of_ne hb hne⟩
      case neg =>
        refine ⟨slashes, d :: ds, he, fun h => absurd (hs _ h) (by decide), hw.symm, fun acc fuel more => ?_⟩
        rw [← hw, List.append_assoc]
        exact cut_slashes hs he hst (by simpa using hb)

-- What is in front of the rest is text if no tag stands in it. Backslashes at its end go with the rest.
theorem cut_untagged (acc : List Char) (fuel : ℕ) (ht : ¬ HasTag cs) (hl : ¬ ['\\'] <:+ cs) (hm : Opens more)
    (hf : cs.length ≤ fuel) :
    ∃ fuel', fuel ≤ fuel' + cs.length ∧ cut acc fuel (cs ++ more) = cut (cs.reverse ++ acc) fuel' more := by
  induction fuel generalizing acc cs
  case zero =>
    obtain rfl : cs = [] := List.eq_nil_of_length_eq_zero (Nat.le_zero.mp hf)
    exact ⟨0, le_rfl, rfl⟩
  case succ fuel hi =>
    rcases cut_cases cs with h | ⟨slashes, ds, hs, rfl⟩ | ⟨before, ds, hb, _, rfl, hc⟩
    case inl =>
      rcases List.eq_nil_or_concat' cs with rfl | ⟨cs, c, rfl⟩
      · exact ⟨fuel + 1, le_rfl, rfl⟩
      · exact absurd (h c (by simp) ▸ List.suffix_append cs [c]) hl
    case inr.inl =>
      -- The bracket starts no tag, so it and the backslashes become part of the text.
      have hg : ¬ HasTag ('[' :: ds) := fun h => ht (h.append_left slashes)
      have hd : ¬ HasTag ds := fun h => hg (h.append_left ['['])
      have hsl : ¬ ['\\'] <:+ ds := fun h => hl (h.trans ⟨slashes ++ ['['], by simp⟩)
      have hlen : ds.length ≤ fuel := by simp at hf; omega
      obtain ⟨fuel', hf', he⟩ := hi ('[' :: (slashes.reverse ++ acc)) hd hsl hlen
      refine ⟨fuel', by simp; omega, ?_⟩
      rw [List.append_assoc, List.cons_append, cut_bracket hs, tag?_append_eq_none (tag?_eq_none_of_not_hasTag hg) hm]
      simpa using he
    case inr.inr =>
      have hd : ¬ HasTag ds := fun h => ht (h.append_left before)
      have hsl : ¬ ['\\'] <:+ ds := fun h => hl (h.trans (List.suffix_append _ _))
      have hp := List.length_pos_of_ne_nil hb
      have hlen : ds.length ≤ fuel := by simp at hf; omega
      obtain ⟨fuel', hf', he⟩ := hi (before.reverse ++ acc) hd hsl hlen
      refine ⟨fuel', by simp; omega, ?_⟩
      rw [hc, he]
      simp

theorem exists_slashes (cs : List Char) :
    ∃ ds slashes, cs = ds ++ slashes ∧ ¬ ['\\'] <:+ ds ∧ ∀ c ∈ slashes, c = '\\' := by
  induction cs using List.reverseRecOn
  case nil => exact ⟨[], [], rfl, by simp, by simp⟩
  case append_singleton cs c hi =>
    by_cases hc : c = '\\'
    case pos =>
      obtain ⟨ds, slashes, rfl, hd, hs⟩ := hi
      refine ⟨ds, slashes ++ [c], by simp, hd, fun b hb => ?_⟩
      rcases List.mem_append.mp hb with hb | hb
      · exact hs b hb
      · exact (List.mem_singleton.mp hb).trans hc
    case neg =>
      refine ⟨cs ++ [c], [], by simp, fun h => hc ?_, by simp⟩
      obtain ⟨before, he⟩ := h
      exact (List.append_inj_right' he rfl |> List.singleton_inj.mp).symm

theorem cut_of_slashes (hs : ∀ c ∈ cs, c = '\\') : cut acc (fuel + 1) cs = [.text (acc.reverse ++ cs)] := by
  by_cases hn : cs = []
  case pos => rw [hn, cut_nil, List.append_nil]
  case neg =>
    have hc : cut acc (fuel + 1) (cs ++ []) = cut (cs.reverse ++ acc) fuel [] := cut_slashes hs hn stops_nil (by simp)
    rw [List.append_nil] at hc
    rw [hc, cut_nil]
    simp

theorem cut_eq_text (ht : ¬ HasTag cs) (hf : cs.length < fuel) : cut acc fuel cs = [.text (acc.reverse ++ cs)] := by
  obtain ⟨ds, slashes, rfl, hl, hs⟩ := exists_slashes cs
  have hd : ¬ HasTag ds := fun h => ht (h.append_right slashes)
  rw [List.length_append] at hf
  obtain ⟨fuel', hf', he⟩ := cut_untagged acc fuel hd hl (opens_of_slashes hs) (by omega)
  obtain ⟨k, rfl⟩ : ∃ k, fuel' = k + 1 := Nat.exists_eq_add_one.mpr (by omega)
  rw [he, cut_of_slashes hs]
  simp

theorem cut_before_tag (acc : List Char) (ht : ¬ HasTag cs) (hl : ¬ ['\\'] <:+ cs) (hs : ∀ c ∈ slashes, c = '\\')
    (hc : tag? inner = some (content, rest)) (hf : (cs ++ (slashes ++ '[' :: inner)).length < fuel) :
    ∃ fuel', rest.length < fuel' ∧ cut acc fuel (cs ++ (slashes ++ '[' :: inner)) =
      .text (acc.reverse ++ cs) :: .text (List.replicate (slashes.length / 2) '\\') ::
        (if slashes.length % 2 = 1 then .text ('[' :: content ++ [']']) else .tag content) :: cut [] fuel' rest := by
  simp only [List.length_append, List.length_cons] at hf
  obtain ⟨fuel', hf', he⟩ := cut_untagged acc fuel ht hl (opens_bracket inner hs) (by omega)
  obtain ⟨k, rfl⟩ : ∃ k, fuel' = k + 1 := Nat.exists_eq_add_one.mpr (by omega)
  have hr := congrArg List.length (tag?_eq_some_iff.mp hc).left
  rw [List.length_append, List.length_cons] at hr
  refine ⟨k, by omega, ?_⟩
  rw [he, cut_bracket hs, hc]
  simp

-- Any fuel that is enough comes to the same.
theorem cut_fuel (hf : cs.length < fuel) (hf' : cs.length < fuel') : cut acc fuel cs = cut acc fuel' cs := by
  induction fuel generalizing acc cs fuel'
  case zero => exact absurd hf (Nat.not_lt_zero _)
  case succ fuel hi =>
    obtain ⟨k, rfl⟩ : ∃ k, fuel' = k + 1 := Nat.exists_eq_add_one.mpr (Nat.zero_lt_of_lt hf')
    rcases cut_cases cs with h | ⟨slashes, ds, hs, rfl⟩ | ⟨before, ds, hb, _, rfl, hc⟩
    case inl => rw [cut_of_slashes h, cut_of_slashes h]
    case inr.inl =>
      simp only [List.length_append, List.length_cons] at hf hf'
      rw [cut_bracket hs, cut_bracket hs]
      cases ht : tag? ds
      case none => exact hi (by omega) (by omega)
      case some p =>
        have hl := congrArg List.length (tag?_eq_some_iff.mp ht).left
        rw [List.length_append, List.length_cons] at hl
        dsimp only
        rw [@hi _ _ k (by omega) (by omega)]
    case inr.inr =>
      have hp := List.length_pos_of_ne_nil hb
      rw [List.length_append] at hf hf'
      have h₁ := hc acc fuel []
      have h₂ := hc acc k []
      rw [List.append_nil, List.append_nil] at h₁ h₂
      rw [h₁, h₂, @hi _ _ k (by omega) (by omega)]

theorem cut_acc (fuel : ℕ) (cs : List Char) :
    ∃ ds ps, ∀ acc, cut acc fuel cs = .text (acc.reverse ++ ds) :: ps := by
  induction fuel generalizing cs
  case zero => exact ⟨[], [], fun acc => by simp [cut]⟩
  case succ fuel hi =>
    rcases cut_cases cs with h | ⟨slashes, ds, hs, rfl⟩ | ⟨before, ds, _, _, rfl, hc⟩
    case inl => exact ⟨cs, [], fun acc => cut_of_slashes h⟩
    case inr.inl =>
      cases ht : tag? ds
      case none =>
        obtain ⟨es, ps, he⟩ := hi ds
        exact ⟨slashes ++ '[' :: es, ps, fun acc => by rw [cut_bracket hs, ht]; simp [he]⟩
      case some p => exact ⟨[], _, fun acc => by rw [cut_bracket hs, ht, List.append_nil]⟩
    case inr.inr =>
      obtain ⟨es, ps, he⟩ := hi ds
      refine ⟨before ++ es, ps, fun acc => ?_⟩
      have h := hc acc fuel []
      rw [List.append_nil, List.append_nil] at h
      rw [h, he]
      simp

theorem shown_text (ts : List OpenTag) (cs : List Char) (ps : List Piece) :
    shown ts (.text cs :: ps) = (shown ts ps).map (visible (unescape cs) ++ ·) := by
  rw [shown]

theorem shown_nothing (ts : List OpenTag) (ps : List Piece) : shown ts (.text [] :: ps) = shown ts ps := by
  rw [shown_text]
  cases shown ts ps <;> rfl

theorem render_of_not_hasTag {s : String} (h : ¬ HasTag s.toList) : render s = .ok (visible (unescape s.toList)) := by
  rw [render, cut_eq_text h (Nat.lt_succ_self _), shown_text]
  simp [shown, Except.map]

structure IsPlainStyle (style : String) : Prop where
  starts  : ∃ c cs, style.toList = c :: cs ∧ startsTag c ∧ c ≠ '/'
  named   : ∀ d ∈ style.toList, d ≠ ']' ∧ d ≠ '['
  whole   : splitTag style.toList = (style.toList, none)
  trimmed : trimBlank style.toList = style.toList
  spelled : spelling style.toList = .ok style

theorem isPlainStyle (h : style ∈ messageStyles) : IsPlainStyle style := by
  simp only [messageStyles, List.mem_cons, List.not_mem_nil, or_false] at h
  rcases h with rfl | rfl | rfl
  all_goals
    exact ⟨⟨_, _, rfl, by decide, by decide⟩, by simp, by decide +kernel, by decide +kernel, by decide +kernel⟩

namespace IsPlainStyle

theorem tag?_open (h : IsPlainStyle style) (rest : List Char) :
    tag? (style.toList ++ ']' :: rest) = some (style.toList, rest) := by
  obtain ⟨c, cs, hc, hs, _⟩ := h.starts
  have hn := h.named
  rw [hc] at hn ⊢
  exact tag?_append hs (List.forall_mem_cons.mp hn).right

theorem tag?_close (h : IsPlainStyle style) (rest : List Char) :
    tag? ('/' :: style.toList ++ ']' :: rest) = some ('/' :: style.toList, rest) :=
  tag?_append (by decide) h.named

theorem shown_close (h : IsPlainStyle style) (ps : List Piece) :
    shown [⟨style, none⟩] (.tag ('/' :: style.toList) :: ps) = shown [] ps := by
  obtain ⟨c, cs, hc, _⟩ := h.starts
  have hn : trimBlank (splitTag style.toList).1 = c :: cs := by rw [h.whole, h.trimmed, hc]
  have hs : spelling (c :: cs) = .ok style := hc ▸ h.spelled
  conv_lhs => unfold shown
  split
  case h_1 he => cases he
  case h_2 he => cases he
  case h_3 he =>
    cases he
    rw [hn]
    dsimp only
    rw [hs]
    simp [close, OpenTag.check, bind, Except.bind]
  case h_4 hc he =>
    cases he
    exact (hc _ rfl).elim

theorem shown_open (h : IsPlainStyle style) (ps : List Piece) :
    shown [] (.tag style.toList :: ps) = shown [⟨style, none⟩] ps := by
  obtain ⟨c, cs, hc, _, hd⟩ := h.starts
  have ht : OpenTag.ofContent style.toList = .ok ⟨style, none⟩ := by
    rw [OpenTag.ofContent, h.whole]
    dsimp only
    rw [h.spelled]
    rfl
  conv_lhs => unfold shown
  split
  case h_1 he => cases he
  case h_2 he => cases he
  case h_3 he =>
    rw [hc] at he
    simp [hd] at he
  case h_4 he =>
    cases he
    rw [ht]
    cases hs : shown [⟨style, none⟩] ps <;> simp [OpenTag.lookUp, bind, Except.bind, hs, pure, Except.pure]

end IsPlainStyle

theorem render_styled {s : String} (hs : style ∈ messageStyles) (he : s.toList = styled style label rest) :
    render s = shown [⟨style, none⟩] (cut [] s.toList.length (label ++ '[' :: ('/' :: style.toList ++ ']' :: rest))) := by
  have hp := isPlainStyle hs
  have hc := @cut_bracket (style.toList ++ ']' :: (label ++ '[' :: ('/' :: style.toList ++ ']' :: rest))) [] []
    s.toList.length (by simp)
  rw [hp.tag?_open, List.nil_append] at hc
  have hr : render s = shown [] (cut [] (s.toList.length + 1) (styled style label rest)) := by rw [render, ← he]
  rw [hr]
  refine (congrArg (shown []) hc).trans ?_
  exact (shown_nothing _ _).trans <| (shown_nothing _ _).trans <| hp.shown_open _

theorem render_label {s : String} (hs : style ∈ messageStyles) (ht : ¬ HasTag label) (hl : ¬ ['\\'] <:+ label)
    (he : s.toList = styled style label rest) :
    render s = (shown [] (cut [] (rest.length + 1) rest)).map (visible (unescape label) ++ ·) := by
  have hp := isPlainStyle hs
  have hf : (label ++ ([] ++ '[' :: ('/' :: style.toList ++ ']' :: rest))).length < s.toList.length := by
    simp [he, styled]
    omega
  obtain ⟨fuel, hf, hc⟩ := cut_before_tag [] ht hl (List.forall_mem_nil _) (hp.tag?_close rest) hf
  rw [List.nil_append] at hc
  rw [render_styled hs he, hc, shown_text]
  refine congrArg _ <| (shown_nothing _ _).trans <| (hp.shown_close _).trans ?_
  rw [cut_fuel hf (Nat.lt_succ_self _)]

theorem exists_render_of_styled {s : String} (hs : style ∈ messageStyles) (hl : ¬ HasTag label) (ht : ¬ HasTag rest)
    (he : s.toList = styled style label rest) : ∃ out, render s = .ok out := by
  have hp := isPlainStyle hs
  obtain ⟨ds, slashes, rfl, hd, hb⟩ := exists_slashes label
  have hn : ¬ HasTag ds := fun h => hl (h.append_right slashes)
  have hf : (ds ++ (slashes ++ '[' :: ('/' :: style.toList ++ ']' :: rest))).length < s.toList.length := by
    simp [he, styled]
    omega
  obtain ⟨fuel, hf, hc⟩ := cut_before_tag [] hn hd hb (hp.tag?_close rest) hf
  rw [render_styled hs he, List.append_assoc, hc, shown_text, shown_text]
  -- The closing tag is there, or backslashes make it text; then the style just stays open.
  split
  case isTrue  => exact ⟨_, by rw [shown_text, cut_eq_text ht hf, shown_text]; rfl⟩
  case isFalse => exact ⟨_, by rw [hp.shown_close, cut_eq_text ht hf, shown_text]; rfl⟩

end QueryGlean.Markup
