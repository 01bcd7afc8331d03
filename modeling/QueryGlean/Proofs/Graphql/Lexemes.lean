import QueryGlean.Proofs.Graphql.Compact
import QueryGlean.Proofs.Graphql.Name
import QueryGlean.Proofs.Graphql.Offsets
import QueryGlean.Text.Blank

namespace QueryGlean.Graphql

def lexemesOf (text : String) : List Lexeme :=
  (TokenStream.ofString text).tokens.map (·.toLexeme)

variable {text text₁ text₂ : String} {ds ds₁ ds₂ : List Placed} {ls : List Lexeme} {b : Bool} {cs : List Char}

theorem compact_eq_compactLexemes (text : String) : compact text = compactLexemes (lexemesOf text) :=
  rfl

theorem not_broken_of_definitionsOf {es : List (Definition × Nat)} (h : definitionsOf ls b = .ok es) :
    b = false := by
  unfold definitionsOf at h
  split at h
  case isTrue => cases h
  case isFalse hb =>
    split at h
    case h_2 => cases h
    case h_1 hd =>
      cases ls
      case nil       => simpa using hb
      case cons l ls => exact Grammar.not_broken_of_document hd (List.cons_ne_nil l ls)

-- No text is read up to an unreadable token only.
theorem definitionsOf_of_parse (h : parse text = .ok ds) :
    ∃ es, definitionsOf (lexemesOf text) false = .ok es ∧ ds.map (·.definition) = es.map (·.1) := by
  simp only [parse] at h
  split at h
  case h_2 => cases h
  case h_3 => cases h
  case h_1 es he =>
    cases h
    refine ⟨es, not_broken_of_definitionsOf he ▸ he, ?_⟩
    rw [List.map_map]
    rfl

theorem map_definition_eq_of_parse (h₁ : parse text₁ = .ok ds₁) (h₂ : parse text₂ = .ok ds₂)
    (hl : lexemesOf text₁ = lexemesOf text₂) : ds₁.map (·.definition) = ds₂.map (·.definition) := by
  have ⟨es₁, he₁, hd₁⟩ := definitionsOf_of_parse h₁
  have ⟨es₂, he₂, hd₂⟩ := definitionsOf_of_parse h₂
  rw [hl, he₂] at he₁
  rw [hd₁, hd₂, Except.ok.inj he₁]

theorem Lexer.toNat_of_isNamePart {c : Char} (h : isNamePart c) : 48 ≤ c.toNat ∧ c.toNat ≤ 122 := by
  simp only [isNamePart, Char.isAlphanum] at h
  delta Char.isAlpha Char.isUpper Char.isLower at h
  simp only [Char.isDigit, Bool.or_eq_true,
    Bool.and_eq_true, decide_eq_true_eq, beq_iff_eq, UInt32.le_iff_toNat_le, ge_iff_le] at h
  rcases h with h | rfl
  case inl =>
    simp at h
    omega
  case inr => decide

theorem Lexer.not_isBlank_of_isNamePart {c : Char} (h : isNamePart c) : ¬isBlank c := by
  have ⟨_, _⟩ := toNat_of_isNamePart h
  simp [isBlank]
  omega

theorem Lexer.Spells.not_isBlank {c : Char} {xs : List Char} {k : TokenKind} (h : Spells k c xs) : ¬isBlank c := by
  cases h
  case mark h =>
    unfold TokenKind.ofChar? at h
    split at h <;> first | decide | cases h
  case name hc _ => exact not_isBlank_of_isNamePart (isNamePart_of_isNameStart hc)
  case number h =>
    have ⟨_, _, he, hc⟩ := h.exists_cons
    cases he
    cases hc
    case inl hc => subst hc; decide
    case inr hc => exact not_isBlank_of_isNamePart (by simp [isNamePart, Char.isAlphanum, hc])
  case spread | string | block => decide

theorem Lexer.tokens_of_isBlank {fuel i : Nat} (h : ∀ c ∈ cs, isBlank c) : (scan fuel i cs).tokens = [] := by
  fun_induction scan fuel i cs
  case case1 | case2 | case5 => rfl
  case case3 hi => exact hi fun c hc => h c (List.mem_cons_of_mem _ hc)
  case case4 => exact absurd (h _ List.mem_cons_self) (by decide)
  case case6 hm _ _ =>
    obtain ⟨_, _, _, _, hs⟩ := exists_of_measure hm
    exact absurd (h _ List.mem_cons_self) hs.not_isBlank

theorem ne_nil_of_parse (h : parse text = .ok ds) : ds ≠ [] ∧ lexemesOf text ≠ [] := by
  have ⟨_, _, _, es, _, hd, he⟩ := exists_document_of_parse h
  have ⟨d, _, es₁, hp, hs, _⟩ := Grammar.of_document hd
  constructor
  case left  => simp [he, hs]
  case right =>
    have hl := (Grammar.passes_definition hp).length
    exact List.ne_nil_of_length_pos (Nat.lt_of_lt_of_le (Nat.succ_pos _) hl)

theorem not_isBlankText_of_parse (h : parse text = .ok ds) : isBlankText text = false := by
  refine Bool.eq_false_iff.mpr fun hb => (ne_nil_of_parse h).right ?_
  rw [lexemesOf, TokenStream.ofString, Lexer.tokens_of_isBlank (by simpa [isBlankText] using hb), List.map_nil]

end QueryGlean.Graphql
