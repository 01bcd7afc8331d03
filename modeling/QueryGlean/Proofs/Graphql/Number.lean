import QueryGlean.Graphql.Parser
import QueryGlean.Proofs.Outcome
import QueryGlean.Proofs.Runs

namespace QueryGlean.Graphql.Lexer

open Outcome

variable {c : Char} {cs ds sign w f e xs rest : List Char} {n m : Nat} {b : Bool} {p : Char → Bool}

def AreDigits (ds : List Char) : Prop :=
  ds ≠ [] ∧ ∀ c ∈ ds, c.isDigit

def IsSign (p : Char → Bool) (cs : List Char) : Prop :=
  cs = [] ∨ ∃ c, cs = [c] ∧ p c

def IsWhole (cs : List Char) : Prop :=
  cs = ['0'] ∨ AreDigits cs ∧ cs.head? ≠ some '0'

def IsFraction (cs : List Char) : Prop :=
  cs = [] ∨ ∃ ds, cs = '.' :: ds ∧ AreDigits ds

def IsExponent (cs : List Char) : Prop :=
  cs = [] ∨ ∃ e sign ds, cs = e :: (sign ++ ds) ∧ (e = 'e' ∨ e = 'E') ∧
    IsSign (fun c => c == '+' || c == '-') sign ∧ AreDigits ds

def isNumberPart (c : Char) : Bool :=
  c.isDigit || c == '.' || isNameStart c

theorem isNumberPart_of_exponent (h : c = 'e' ∨ c = 'E') : isNumberPart c := by
  cases h <;> rename_i h <;> subst h <;> decide

theorem AreDigits.exists_cons (h : AreDigits ds) : ∃ d ds', ds = d :: ds' ∧ d.isDigit := by
  have ⟨hn, hd⟩ := h
  cases ds
  case nil       => exact absurd rfl hn
  case cons d ds => exact ⟨d, ds, rfl, hd d List.mem_cons_self⟩

theorem AreDigits.stops (h : AreDigits ds) (hp : ∀ c, c.isDigit → ¬p c) (rest : List Char) :
    Stops p (ds ++ rest) := by
  have ⟨d, ds', he, hd⟩ := h.exists_cons
  simpa [he] using hp d hd

theorem digits_eq_ok_iff :
    digits n cs = .ok m ↔
      ∃ ds rest, cs = ds ++ rest ∧ AreDigits ds ∧ Stops Char.isDigit rest ∧ m = n + ds.length := by
  unfold digits
  dsimp only
  constructor
  case mp =>
    intro h
    split at h
    case isTrue => cases h
    case isFalse hd =>
      have ⟨rest, hc, hr⟩ := exists_takeWhile Char.isDigit cs
      cases h
      refine ⟨_, rest, hc, ⟨by simpa using hd, fun c hc => ?_⟩, hr, rfl⟩
      exact List.all_eq_true.mp List.all_takeWhile c hc
  case mpr =>
    intro ⟨ds, rest, he, ⟨hd, ha⟩, hr, hm⟩
    simp [he, hm, takeWhile_append_eq ha hr, hd]

theorem wholePart_eq_ok_iff :
    wholePart n cs = .ok m ↔
      ∃ w rest, cs = w ++ rest ∧ IsWhole w ∧ Stops Char.isDigit rest ∧ m = n + w.length := by
  unfold wholePart
  split
  case h_1 rest =>
    constructor
    case mp =>
      intro h
      split at h
      case isTrue => cases h
      case isFalse hr =>
        cases h
        exact ⟨['0'], rest, rfl, .inl rfl, by simpa [Stops] using hr, rfl⟩
    case mpr =>
      rintro ⟨w, rest', he, hw, hr, hm⟩
      cases hw
      case inl hw =>
        subst hw
        cases he
        simpa [Stops, hm] using hr
      case inr hw =>
        obtain ⟨d, ds, hd, _⟩ := hw.left.exists_cons
        subst hd
        cases he
        exact absurd rfl hw.right
  case h_2 hz =>
    rw [digits_eq_ok_iff]
    refine exists_congr fun w => exists_congr fun rest => and_congr_right fun he => and_congr_left' ?_
    subst he
    constructor
    case mp =>
      refine fun hw => .inr ⟨hw, fun hc => ?_⟩
      cases w <;> simp_all
    case mpr =>
      intro hw
      cases hw
      case inl hw => exact absurd (by rw [hw]; rfl) (hz rest)
      case inr hw => exact hw.left

theorem fractionPart_eq_ok_iff :
    fractionPart n cs = .ok m ↔
      ∃ f rest, cs = f ++ rest ∧ IsFraction f ∧
        Stops (if f = [] then (· == '.') else Char.isDigit) rest ∧ m = n + f.length := by
  unfold fractionPart
  split
  case h_1 rest =>
    rw [digits_eq_ok_iff]
    constructor
    case mp =>
      intro ⟨ds, rest', he, hd, hr, hm⟩
      exact ⟨'.' :: ds, rest', by rw [he]; rfl, .inr ⟨ds, rfl, hd⟩, by simpa using hr, by simp [hm]; omega⟩
    case mpr =>
      intro ⟨f, rest', he, hf, hr, hm⟩
      cases hf
      case inl hf =>
        subst hf
        cases he
        simp at hr
      case inr hf =>
        have ⟨ds, hf, hd⟩ := hf
        subst hf
        exact ⟨ds, rest', by simpa using he, hd, by simpa using hr, by simp [hm]; omega⟩
  case h_2 hp =>
    constructor
    case mp =>
      intro h
      cases h
      refine ⟨[], cs, rfl, .inl rfl, ?_, rfl⟩
      cases cs <;> simp_all
    case mpr =>
      intro ⟨f, rest, he, hf, _, hm⟩
      cases hf
      case inl hf => simp [hm, hf]
      case inr hf =>
        have ⟨ds, hf, _⟩ := hf
        exact absurd (by rw [he, hf]; rfl) (hp (ds ++ rest))

theorem exists_sign (p : Char → Bool) (cs : List Char) :
    ∃ sign rest, cs = sign ++ rest ∧ IsSign p sign ∧ sign.length = signLength p cs := by
  unfold signLength
  split
  case isTrue h =>
    cases cs
    case nil       => simp at h
    case cons c cs => exact ⟨[c], cs, rfl, .inr ⟨c, rfl, by simpa using h⟩, rfl⟩
  case isFalse => exact ⟨[], cs, rfl, .inl rfl, rfl⟩

theorem signLength_append (hs : IsSign p sign) (hr : Stops p rest) :
    signLength p (sign ++ rest) = sign.length := by
  cases hs
  case inl hs => simpa [hs, signLength, Stops] using hr
  case inr hs =>
    obtain ⟨c, hc, hp⟩ := hs
    simp [hc, signLength, hp]

theorem signed_eq_ok_iff (hp : ∀ c, c.isDigit → ¬p c) :
    digits (n + signLength p cs) (cs.drop (signLength p cs)) = .ok m ↔
      ∃ sign ds rest, cs = sign ++ (ds ++ rest) ∧ IsSign p sign ∧ AreDigits ds ∧
        Stops Char.isDigit rest ∧ m = n + sign.length + ds.length := by
  rw [digits_eq_ok_iff]
  constructor
  case mp =>
    intro ⟨ds, rest, he, hd, hr, hm⟩
    have ⟨sign, cs', hc, hs, hl⟩ := exists_sign p cs
    rw [← hl, hc, List.drop_left] at he
    exact ⟨sign, ds, rest, by rw [hc, he], hs, hd, hr, by rw [hl, hm]⟩
  case mpr =>
    intro ⟨sign, ds, rest, hc, hs, hd, hr, hm⟩
    have hl : signLength p cs = sign.length := hc ▸ signLength_append hs (hd.stops hp rest)
    exact ⟨ds, rest, by rw [hl, hc, List.drop_left], hd, hr, by rw [hl, hm]⟩

theorem exponentPart_eq_ok_iff :
    exponentPart n cs = .ok m ↔
      ∃ e rest, cs = e ++ rest ∧ IsExponent e ∧
        Stops (if e = [] then fun c => c == 'e' || c == 'E' else Char.isDigit) rest ∧ m = n + e.length := by
  have hn (c : Char) (h : c.isDigit) : ¬(c == '+' || c == '-') := by
    simp only [Bool.or_eq_true, beq_iff_eq]
    rintro (rfl | rfl) <;> simp at h
  unfold exponentPart
  split
  case h_1 c cs =>
    split
    -- With the letter of an exponent there must be digits behind it.
    case isTrue hc =>
      dsimp only
      rw [signed_eq_ok_iff hn]
      constructor
      case mp =>
        intro ⟨sign, ds, rest, he, hs, hd, hr, hm⟩
        refine ⟨c :: (sign ++ ds), rest, by simp [he], .inr ⟨c, sign, ds, rfl, hc, hs, hd⟩, by simpa using hr, ?_⟩
        simp only [hm, List.length_cons, List.length_append]
        omega
      case mpr =>
        intro ⟨e, rest, he, hx, hr, hm⟩
        rcases hx with rfl | ⟨c', sign, ds, rfl, _, hs, hd⟩
        · cases he
          simp [hc] at hr
        · cases he
          refine ⟨sign, ds, rest, by simp, hs, hd, by simpa using hr, ?_⟩
          simp only [hm, List.length_cons, List.length_append]
          omega
    case isFalse hc =>
      constructor
      case mp =>
        intro h
        cases h
        exact ⟨[], c :: cs, rfl, .inl rfl, by simpa using hc, rfl⟩
      case mpr =>
        intro ⟨e, rest, he, hx, _, hm⟩
        rcases hx with rfl | ⟨c', sign, ds, rfl, hc', _⟩
        · simp [hm]
        · cases he
          exact absurd hc' hc
  case h_2 =>
    constructor
    case mp =>
      intro h
      cases h
      exact ⟨[], [], rfl, .inl rfl, stops_nil, rfl⟩
    case mpr =>
      intro ⟨e, rest, he, _, _, hm⟩
      simp_all

theorem IsWhole.stops (h : IsWhole w) (hp : ∀ c, c.isDigit → ¬p c) (rest : List Char) :
    Stops p (w ++ rest) := by
  cases h
  case inl h => simpa [h] using hp '0' rfl
  case inr h => exact h.left.stops hp rest

theorem IsFraction.stops (h : IsFraction f) (hp : ¬p '.') (hr : Stops p rest) : Stops p (f ++ rest) := by
  cases h
  case inl h => simpa [h] using hr
  case inr h =>
    have ⟨ds, h, _⟩ := h
    simpa [h] using hp

theorem IsExponent.stops (h : IsExponent e) (hp : ∀ c, c = 'e' ∨ c = 'E' → ¬p c) (hr : Stops p rest) :
    Stops p (e ++ rest) := by
  cases h
  case inl h => simpa [h] using hr
  case inr h =>
    have ⟨c, _, _, h, hc, _⟩ := h
    simpa [h] using hp c hc

def IsNumber (cs : List Char) (b : Bool) : Prop :=
  ∃ sign w f e, cs = sign ++ (w ++ (f ++ e)) ∧ IsSign (· == '-') sign ∧ IsWhole w ∧ IsFraction f ∧
    IsExponent e ∧ b = (0 != f.length + e.length)

theorem AreDigits.not_mem (h : AreDigits ds) (hc : ¬c.isDigit) : c ∉ ds :=
  fun hm => hc (h.right c hm)

theorem IsSign.not_mem (h : IsSign p cs) (hc : ¬p c) : c ∉ cs := by
  cases h
  case inl h => simp [h]
  case inr h =>
    have ⟨d, hd, hp⟩ := h
    rw [hd, List.mem_singleton]
    rintro rfl
    exact hc hp

theorem IsNumber.not_mem (h : IsNumber cs b) : '\n' ∉ cs := by
  have ⟨sign, w, f, e, he, hs, hw, hf, hx, _⟩ := h
  have hd : ¬ '\n'.isDigit := by decide
  simp only [he, List.mem_append, not_or]
  refine ⟨hs.not_mem (by decide), ?_, ?_, ?_⟩
  · cases hw
    case inl hw => simp [hw]
    case inr hw => exact hw.left.not_mem hd
  · cases hf
    case inl hf => simp [hf]
    case inr hf =>
      have ⟨ds, hf, hds⟩ := hf
      simp [hf, hds.not_mem hd]
  · cases hx
    case inl hx => simp [hx]
    case inr hx =>
      have ⟨m, sign, ds, hx, hm, hs, hds⟩ := hx
      have hn : m ≠ '\n' := by rintro rfl; simp at hm
      simp [hx, hn.symm, hs.not_mem (c := '\n') (by decide), hds.not_mem hd]

theorem exists_of_number (h : number cs = .ok (n, b)) :
    ∃ xs rest, cs = xs ++ rest ∧ IsNumber xs b ∧ Stops isNumberPart rest ∧ n = xs.length := by
  unfold number at h
  dsimp only at h
  -- Each part starts where the one before it stops: behind the sign is `r₀`, behind the whole part `r₁`, and so
  -- on.
  have ⟨sign, r₀, h₀, hs, l₀⟩ := exists_sign (· == '-') cs
  have d₀ : cs.drop sign.length = r₀ := by rw [h₀, List.drop_left]
  rw [← l₀, d₀] at h
  have ⟨whole, hw, h⟩ := ok_of_bind h
  have ⟨w, r₁, h₁, hw, s₁, l₁⟩ := wholePart_eq_ok_iff.mp hw
  have d₁ : cs.drop whole = r₁ := l₁ ▸ drop_add_length (d₀.trans h₁)
  have ⟨fraction, hf, h⟩ := ok_of_bind h
  have ⟨f, r₂, h₂, hf, s₂, l₂⟩ := fractionPart_eq_ok_iff.mp (d₁ ▸ hf)
  have d₂ : cs.drop fraction = r₂ := l₂ ▸ drop_add_length (d₁.trans h₂)
  have ⟨stop, he, h⟩ := ok_of_bind h
  have ⟨e, r₃, h₃, he, s₃, l₃⟩ := exponentPart_eq_ok_iff.mp (d₂ ▸ he)
  have d₃ : cs.drop stop = r₃ := l₃ ▸ drop_add_length (d₂.trans h₃)
  -- Parts may be missing, so the last one that is there tells that no digit follows.
  have hd : Stops Char.isDigit r₃ := by
    by_cases hx : e = []
    case neg => simpa [hx] using s₃
    case pos =>
      by_cases hy : f = []
      case neg => simpa [hx, hy, h₃] using s₂
      case pos => simpa [hx, hy, h₂, h₃] using s₁
  have ⟨hr, hn, hb⟩ : Stops isNumberPart r₃ ∧ n = stop ∧ b = (whole != stop) := by
    rw [d₃] at h
    cases r₃
    case nil => cases h; exact ⟨stops_nil, rfl, rfl⟩
    case cons c r₃ =>
      simp only [List.head?_cons] at h
      split at h
      case isTrue => cases h
      case isFalse hc => cases h; simp_all [isNumberPart]
  refine ⟨sign ++ (w ++ (f ++ e)), r₃, by simp [h₀, h₁, h₂, h₃], ⟨sign, w, f, e, rfl, hs, hw, hf, he, ?_⟩, hr, ?_⟩
  · rw [hb, l₃, l₂, Bool.eq_iff_iff]
    simp
    omega
  · simp only [List.length_append]
    omega

theorem number_append (h : IsNumber xs b) (hr : Stops isNumberPart rest) :
    number (xs ++ rest) = .ok (xs.length, b) := by
  have ⟨sign, w, f, e, hx, hs, hw, hf, he, hb⟩ := h
  have hm (c : Char) (h : c.isDigit) : ¬(c == '-') := by simp; rintro rfl; simp at h
  have hd (c : Char) (h : c.isDigit) : isNumberPart c := by simp [isNumberPart, h]
  have hp (c : Char) (h : c == '.') : isNumberPart c := by simp_all [isNumberPart]
  have d₀ : (xs ++ rest).drop sign.length = w ++ (f ++ (e ++ rest)) := by simp [hx]
  have d₁ := drop_add_length d₀
  have d₂ := drop_add_length d₁
  have d₃ := drop_add_length d₂
  -- What follows a part does not carry it on, be it the next part or the rest of the text.
  have s₁ : Stops Char.isDigit (e ++ rest) := he.stops (by rintro c (rfl | rfl) <;> decide) (hr.mono hd)
  have s₂ : Stops (if f = [] then (· == '.') else Char.isDigit) (e ++ rest) := by
    split
    · exact he.stops (by rintro c (rfl | rfl) <;> decide) (hr.mono hp)
    · exact s₁
  have s₃ : Stops (if e = [] then fun c => c == 'e' || c == 'E' else Char.isDigit) rest := by
    split
    · exact hr.mono fun c h => isNumberPart_of_exponent (by simpa using h)
    · exact hr.mono hd
  have h₀ : signLength (· == '-') (xs ++ rest) = sign.length := by
    rw [hx]
    simpa using signLength_append hs (hw.stops hm (f ++ (e ++ rest)))
  have h₁ := wholePart_eq_ok_iff (n := sign.length) |>.mpr ⟨w, _, d₀, hw, hf.stops (by decide) s₁, rfl⟩
  have h₂ := fractionPart_eq_ok_iff (n := sign.length + w.length) |>.mpr ⟨f, _, d₁, hf, s₂, rfl⟩
  have h₃ := exponentPart_eq_ok_iff (n := sign.length + w.length + f.length) |>.mpr ⟨e, _, d₂, he, s₃, rfl⟩
  have hb : b = (sign.length + w.length != sign.length + w.length + f.length + e.length) := by
    rw [hb, Bool.eq_iff_iff]
    simp
    omega
  have hl : xs.length = sign.length + w.length + f.length + e.length := by simp [hx]; omega
  simp only [number, h₀, h₁, h₂, h₃, d₃, bind, Except.bind]
  cases rest
  case nil => rw [hl, hb]; rfl
  case cons c rest =>
    have hc : ¬(c = '.' ∨ isNameStart c) := by simp_all [isNumberPart]
    rw [hl, hb]
    simp [hc]

end QueryGlean.Graphql.Lexer
