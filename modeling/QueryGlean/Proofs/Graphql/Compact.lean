import QueryGlean.Graphql.Compact
import QueryGlean.Proofs.Graphql.BlockText

namespace QueryGlean.Graphql

-- What tells lexemes apart: a block string is the text that it stands for, however it is laid out.
def Lexeme.sense (l : Lexeme) : TokenKind × String :=
  (l.kind, if l.kind = .blockString then l.value else l.spelling)

def Lexeme.compacted (l : Lexeme) : Lexeme :=
  ⟨l.kind, l.compact⟩

def senses (text : String) : List (TokenKind × String) :=
  (TokenStream.ofString text).tokens.map (·.toLexeme.sense)

variable {l l₁ l₂ : Lexeme} {ls ls₁ ls₂ : List Lexeme} {text text₁ text₂ : String} {b : Bool}

theorem Lexeme.Spelled.compacted (h : l.Spelled) : l.compacted.Spelled := by
  by_cases hk : l.kind = .blockString
  case pos =>
    have ⟨xs, hp, hx⟩ := BlockText.spells_print l.value true
    exact ⟨'"', '"' :: '"' :: xs, by simpa [Lexeme.compacted, compact, hk] using hp, hk ▸ .block hx⟩
  case neg => simpa [Spelled, Lexeme.compacted, compact, hk] using h

theorem Lexeme.trimmed_value (h : l.kind = .blockString) : Trimmed BlockText.isNewline l.value.toList := by
  simp only [value, h]
  exact BlockText.trimmed_value _

theorem Lexeme.compacted_eq_iff : l₁.compacted = l₂.compacted ↔ l₁.sense = l₂.sense := by
  simp only [compacted, sense, Lexeme.mk.injEq, Prod.mk.injEq]
  refine and_congr_right fun hk => ?_
  by_cases h : l₁.kind = .blockString
  case neg => simp [compact, h, hk ▸ h]
  case pos =>
    have h₂ : l₂.kind = .blockString := hk ▸ h
    simp only [compact, h, h₂, if_true]
    exact ⟨BlockText.print_injective (trimmed_value h) (trimmed_value h₂), fun he => by rw [he]⟩

theorem Lexer.Spells.not_runsOn {k : TokenKind} {c : Char} {xs : List Char} (h : Spells k c xs)
    (hp : k.isPunctuator) (hs : k ≠ .spread) : ¬runsOn c := by
  cases h
  case mark h =>
    unfold TokenKind.ofChar? at h
    split at h <;> first | decide | cases h
  case spread   => exact absurd rfl hs
  case number b _ => cases b <;> cases hp
  case name | string | block => cases hp

-- A lexeme that a word could run into has a blank in front of it.
theorem stops_go (h : ∀ l ∈ ls, l.Spelled) : Stops Lexer.runsOn (compactLexemes.go true ls).toList := by
  cases ls
  case nil => exact stops_nil
  case cons l ls =>
    unfold compactLexemes.go
    dsimp only
    split
    case isTrue => simp [Lexer.runsOn, Lexer.isNumberPart, Lexer.isNameStart]
    case isFalse hg =>
      obtain ⟨hp, hs⟩ : l.kind.isPunctuator ∧ l.kind ≠ .spread := by simpa using hg
      obtain ⟨c, xs, hc, hl⟩ := (h l List.mem_cons_self).compacted
      have hr : ¬Lexer.runsOn c := hl.not_runsOn hp hs
      rw [String.empty_append, String.toList_append, show l.compact.toList = c :: xs from hc]
      simpa using hr

-- Reading back what was written, from any place on.
theorem scan_go {fuel i : Nat} (h : ∀ l ∈ ls, l.Spelled) (hf : (compactLexemes.go b ls).length < fuel) :
    (Lexer.scan fuel i (compactLexemes.go b ls).toList).tokens.map (·.toLexeme) = ls.map Lexeme.compacted := by
  induction ls generalizing fuel i b
  case nil => cases fuel <;> rfl
  case cons l ls hi =>
    have ⟨c, xs, hc, hs⟩ := (h l List.mem_cons_self).compacted
    have hc : l.compact.toList = c :: xs := hc
    have hls : ∀ l ∈ ls, l.Spelled := fun l hl => h l (List.mem_cons_of_mem _ hl)
    have hr : l.kind.isPunctuator ∨ Stops Lexer.runsOn (compactLexemes.go (!l.kind.isPunctuator) ls).toList := by
      cases hp : l.kind.isPunctuator
      case true  => exact .inl rfl
      case false => exact .inr (stops_go hls)
    -- The lexeme is read alike with and without a blank in front of it.
    have step {fuel i : Nat} (hf : (l.compact ++ compactLexemes.go (!l.kind.isPunctuator) ls).length < fuel) :
        (Lexer.scan fuel i (l.compact ++ compactLexemes.go (!l.kind.isPunctuator) ls).toList).tokens.map
          (·.toLexeme) = (l :: ls).map Lexeme.compacted := by
      have ⟨f, hf'⟩ := Nat.exists_eq_add_one_of_ne_zero (Nat.ne_zero_of_lt hf)
      subst hf'
      have hl : (compactLexemes.go (!l.kind.isPunctuator) ls).length < f := by
        rw [String.length_append, ← String.length_toList, hc, List.length_cons] at hf
        omega
      rw [String.toList_append, hc, List.cons_append, Lexer.scan_append hs hr]
      dsimp only
      rw [List.map_cons, hi hls hl, List.map_cons, ← hc, String.ofList_toList]
      rfl
    rw [compactLexemes.go, String.append_assoc] at hf ⊢
    split
    case isFalse hg =>
      rw [if_neg hg] at hf
      rw [String.empty_append] at hf ⊢
      exact step hf
    case isTrue hg =>
      have ⟨f, hf'⟩ := Nat.exists_eq_add_one_of_ne_zero (Nat.ne_zero_of_lt hf)
      subst hf'
      rw [if_pos hg, String.length_append, show " ".length = 1 from rfl] at hf
      rw [String.toList_append, show " ".toList = [' '] from rfl, List.singleton_append, Lexer.scan,
        if_pos (show Lexer.isIgnored ' ' from rfl)]
      exact step (by omega)

theorem lexemes_compact (text : String) :
    (TokenStream.ofString (compact text)).tokens.map (·.toLexeme) =
      ((TokenStream.ofString text).tokens.map (·.toLexeme)).map Lexeme.compacted :=
  scan_go (fun _ hl => TokenStream.spelled_ofString hl) (Nat.lt_succ_self _)

theorem go_congr (h : ls₁.map Lexeme.compacted = ls₂.map Lexeme.compacted) :
    compactLexemes.go b ls₁ = compactLexemes.go b ls₂ := by
  induction ls₁ generalizing ls₂ b
  case nil => rw [List.map_eq_nil_iff.mp h.symm]
  case cons l₁ ls₁ hi =>
    cases ls₂
    case nil => cases h
    case cons l₂ ls₂ =>
      have ⟨hl, hs⟩ := List.cons_eq_cons.mp h
      have ⟨hk, hc⟩ := Lexeme.mk.inj hl
      simp only [compactLexemes.go, hk, hc, hi hs]

theorem map_compacted_eq_iff :
    ls₁.map Lexeme.compacted = ls₂.map Lexeme.compacted ↔ ls₁.map Lexeme.sense = ls₂.map Lexeme.sense := by
  induction ls₁ generalizing ls₂ <;> cases ls₂ <;> simp_all [Lexeme.compacted_eq_iff]

theorem compact_eq_iff : compact text₁ = compact text₂ ↔ senses text₁ = senses text₂ := by
  have hs (text : String) : senses text = ((TokenStream.ofString text).tokens.map (·.toLexeme)).map Lexeme.sense := by
    rw [List.map_map]
    rfl
  rw [hs, hs, ← map_compacted_eq_iff]
  constructor
  case mp  => exact fun h => by rw [← lexemes_compact, ← lexemes_compact, h]
  case mpr => exact go_congr

end QueryGlean.Graphql
