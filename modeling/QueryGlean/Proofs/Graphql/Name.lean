import QueryGlean.Proofs.Graphql.Lexer

namespace QueryGlean.Graphql

-- A letter or an underscore, and then letters, digits and underscores, all of them ASCII.
def isName (s : String) : Bool :=
  match s.toList with
  | [] => false
  | c :: cs => Lexer.isNameStart c && cs.all Lexer.isNamePart

theorem Lexer.isNamePart_of_isNameStart {c : Char} (h : isNameStart c) : isNamePart c := by
  simp only [isNameStart, isNamePart, Char.isAlphanum, Bool.or_eq_true] at h ⊢
  exact h.imp_left .inl

theorem isName_iff_head_and_all {s : String} :
    isName s ↔ s.toList.head?.any Lexer.isNameStart ∧ ∀ c ∈ s.toList, Lexer.isNamePart c := by
  unfold isName
  split
  case h_1 h => simp [h]
  case h_2 c cs h =>
    simp only [h, List.head?_cons, Option.any_some, List.forall_mem_cons, Bool.and_eq_true, List.all_eq_true]
    exact and_congr_right fun hc => (and_iff_right (Lexer.isNamePart_of_isNameStart hc)).symm

theorem Lexer.Spells.isName {c : Char} {xs : List Char} (h : Spells .name c xs) :
    isNameStart c ∧ ∀ x ∈ xs, isNamePart x := by
  generalize hk : TokenKind.name = k at h
  cases h
  case name hc hx => exact ⟨hc, hx⟩
  case mark h =>
    subst hk
    cases TokenKind.mark?_of_ofChar? h
  case number b _ => cases b <;> cases hk
  all_goals cases hk

theorem Lexeme.Spelled.isName {l : Lexeme} (h : l.Spelled) (hk : l.kind = .name) : isName l.spelling := by
  have ⟨c, xs, hl, hs⟩ := h
  have ⟨hc, hx⟩ := (hk ▸ hs).isName
  simpa [Graphql.isName, hl, hc] using hx

-- Names are what the lexer reads as one name from end to end.
theorem ofString_eq_name_iff {s : String} : TokenStream.ofString s = ⟨[⟨⟨.name, s⟩, 0⟩], none⟩ ↔ isName s := by
  constructor
  case mp =>
    intro h
    have ht : (⟨⟨.name, s⟩, 0⟩ : Token) ∈ (TokenStream.ofString s).tokens := by simp [h]
    exact (Lexer.spelled_of_mem_scan ht).isName rfl
  case mpr =>
    intro h
    unfold isName at h
    split at h
    case h_1 => cases h
    case h_2 c cs hc =>
      have ⟨hs, hp⟩ : Lexer.isNameStart c ∧ ∀ x ∈ cs, Lexer.isNamePart x := by simpa using h
      have hl : s.length ≠ 0 := by rw [← String.length_toList, hc]; exact Nat.succ_ne_zero _
      have ⟨n, hn⟩ := Nat.exists_eq_add_one_of_ne_zero hl
      have hr : Stops Lexer.runsOn ([] : List Char) := stops_nil
      rw [TokenStream.ofString, hc, ← List.append_nil cs, Lexer.scan_append (.name hs hp) (.inr hr), hn, ← hc,
        String.ofList_toList]
      rfl

end QueryGlean.Graphql
