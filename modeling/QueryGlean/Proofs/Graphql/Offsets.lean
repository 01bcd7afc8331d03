import QueryGlean.Proofs.Graphql.Lexer
import QueryGlean.Proofs.Graphql.Progress

namespace QueryGlean.Graphql

namespace Lexer

theorem pos_of_measure {c : Char} {cs : List Char} {k : TokenKind} {n : Nat}
    (h : measure c cs = .ok (k, n)) : 0 < n := by
  have ⟨_, _, _, hn, _⟩ := exists_of_measure h
  omega

-- Every token passes at least one character, so the next one starts behind it.
theorem starts_of_scan (fuel i : Nat) (cs : List Char) :
    (scan fuel i cs).tokens.Pairwise (·.start < ·.start) ∧
      ∀ t ∈ (scan fuel i cs).tokens, i ≤ t.start := by
  fun_induction scan fuel i cs
  case case1 | case2 | case5 => simp
  case case3 hi =>
    exact ⟨hi.left, fun t ht => Nat.le_of_succ_le (hi.right t ht)⟩
  case case4 hi =>
    exact ⟨hi.left, fun t ht => by have := hi.right t ht; omega⟩
  case case6 hm _ hi =>
    have hp := pos_of_measure hm
    simp only [List.pairwise_cons, List.mem_cons, forall_eq_or_imp, Nat.le_refl, true_and]
    exact ⟨⟨fun t ht => by have := hi.right t ht; omega, hi.left⟩,
      fun t ht => by have := hi.right t ht; omega⟩

theorem start_lt_of_scan (fuel i : Nat) (cs : List Char) :
    ∀ t ∈ (scan fuel i cs).tokens, t.start < i + cs.length := by
  fun_induction scan fuel i cs
  case case1 | case2 | case5 => simp
  case case3 hi =>
    intro t ht
    have := hi t ht
    rw [List.length_cons]
    omega
  case case4 _ _ cs comment _ hi =>
    intro t ht
    have := hi t ht
    have : comment.length ≤ cs.length := (List.takeWhile_prefix _).length_le
    rw [List.length_drop] at *
    rw [List.length_cons]
    omega
  case case6 hm _ hi =>
    obtain ⟨xs, rest, he, hn, _⟩ := exists_of_measure hm
    intro t ht
    cases List.mem_cons.mp ht
    case inl ht => simp [ht]
    case inr ht =>
      have := hi t ht
      simp only [he, hn, List.length_drop, List.length_cons, List.length_append] at *
      omega

end Lexer

theorem TokenStream.pairwise_start_ofString (text : String) :
    (ofString text).tokens.Pairwise (·.start < ·.start) :=
  Lexer.starts_of_scan _ _ _ |>.left

-- Fewer tokens left means further on in the text.
theorem TokenStream.offset_lt_offset {s : TokenStream} {length l₁ l₂ : Nat}
    (hs : s.tokens.Pairwise (·.start < ·.start)) (h : l₂ < l₁) (h₁ : l₁ ≤ s.tokens.length) (h₂ : 0 < l₂) :
    s.offset length l₁ < s.offset length l₂ := by
  have i₁ : s.tokens.length - l₁ < s.tokens.length := by omega
  have i₂ : s.tokens.length - l₂ < s.tokens.length := by omega
  simp only [offset, List.getElem?_eq_getElem i₁, List.getElem?_eq_getElem i₂]
  exact List.pairwise_iff_getElem.mp hs _ _ i₁ i₂ (by omega)

theorem exists_document_of_parse {text : String} {ds : List Placed} (h : parse text = .ok ds) :
    let stream := TokenStream.ofString text
    ∃ fuel n broken es c, Grammar.document fuel n ⟨stream.tokens.map (·.toLexeme), broken, 0⟩ = .ok (es, c) ∧
      ds = es.map fun e => ⟨e.1, stream.offset text.length e.2⟩ := by
  simp only [parse] at h
  split at h
  case h_2 => cases h
  case h_3 => cases h
  case h_1 es he =>
    cases h
    unfold definitionsOf at he
    split at he
    case isTrue => cases he
    case isFalse =>
      split at he
      case h_2 => cases he
      case h_1 hd =>
        cases he
        exact ⟨_, _, _, _, _, hd, rfl⟩

theorem pairwise_start_of_parse {text : String} {ds : List Placed} (h : parse text = .ok ds) :
    ds.Pairwise (·.start < ·.start) := by
  have ⟨_, _, _, es, _, hd, he⟩ := exists_document_of_parse h
  have ⟨hp, hb⟩ := Grammar.lefts_of_document hd
  simp only [List.length_map] at hb
  rw [List.pairwise_map] at hp
  rw [he, List.pairwise_map]
  refine hp.imp_of_mem fun {d₁ d₂} h₁ h₂ hl => ?_
  have ⟨_, b₁⟩ := hb _ (List.mem_map_of_mem h₁)
  have ⟨b₂, _⟩ := hb _ (List.mem_map_of_mem h₂)
  exact TokenStream.offset_lt_offset (TokenStream.pairwise_start_ofString text) hl b₁ b₂

theorem exists_token_of_parse {text : String} {ds : List Placed} {d : Placed} (h : parse text = .ok ds) (hd : d ∈ ds) :
    ∃ t ∈ (TokenStream.ofString text).tokens, t.start = d.start := by
  have ⟨_, _, _, es, _, hs, he⟩ := exists_document_of_parse h
  have ⟨e, hm, hd⟩ := List.mem_map.mp (he ▸ hd)
  have ⟨hp, hl⟩ := (Grammar.lefts_of_document hs).right _ (List.mem_map_of_mem hm)
  simp only [List.length_map] at hl
  have hi : (TokenStream.ofString text).tokens.length - e.2 < (TokenStream.ofString text).tokens.length := by omega
  refine ⟨_, List.getElem_mem hi, ?_⟩
  rw [← hd, TokenStream.offset, List.getElem?_eq_getElem hi]

theorem start_lt_length_of_parse {text : String} {ds : List Placed} {d : Placed} (h : parse text = .ok ds) (hd : d ∈ ds) :
    d.start < text.length := by
  have ⟨t, ht, hs⟩ := exists_token_of_parse h hd
  have := Lexer.start_lt_of_scan _ _ _ t ht
  rw [Nat.zero_add, String.length_toList] at this
  exact hs ▸ this

-- Nothing but blank characters and comments stands before the first definition.
theorem start_le_of_parse {text : String} {d : Placed} {ds : List Placed} (h : parse text = .ok (d :: ds)) :
    ∀ t ∈ (TokenStream.ofString text).tokens, d.start ≤ t.start := by
  have ⟨_, _, _, es, _, hd, he⟩ := exists_document_of_parse h
  have ⟨e, _, es₁, _, hs, _⟩ := Grammar.of_document hd
  rw [hs, List.map_cons] at he
  have hp := TokenStream.pairwise_start_ofString text
  intro t ht
  calc
    d.start = (TokenStream.ofString text).offset text.length (TokenStream.ofString text).tokens.length := by
      simp [(List.cons.inj he).left]
    _ ≤ t.start := by
      cases hc : (TokenStream.ofString text).tokens <;> simp only [hc] at ht hp
      case nil => cases ht
      case cons u us =>
        simp only [TokenStream.offset, hc, Nat.sub_self, List.getElem?_cons_zero]
        cases List.mem_cons.mp ht
        case inl ht => exact ht ▸ Nat.le_refl _
        case inr ht => exact Nat.le_of_lt ((List.pairwise_cons.mp hp).left t ht)

end QueryGlean.Graphql
