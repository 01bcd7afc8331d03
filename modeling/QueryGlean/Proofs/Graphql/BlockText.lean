import QueryGlean.Proofs.Graphql.Lexer

namespace QueryGlean.Graphql

namespace BlockText

variable {c : Char} {cs rest ending : List Char} {n : Nat}

theorem escape_eq_quote_cons (h : escape cs = '"' :: rest) : ∃ xs, cs = '"' :: xs ∧ rest = escape xs := by
  unfold escape at h
  split at h
  case h_1 => cases h
  case h_2 => cases h
  case h_3 c cs _ =>
    cases h
    exact ⟨cs, rfl, rfl⟩

theorem escape_eq_nil (h : escape cs = []) : cs = [] := by
  unfold escape at h
  split at h
  case h_1 => rfl
  case h_2 | h_3 => cases h

theorem escape_ne_triple : escape cs ≠ '"' :: '"' :: '"' :: rest := by
  intro h
  have ⟨xs, h₁, hx⟩ := escape_eq_quote_cons h
  have ⟨ys, h₂, hy⟩ := escape_eq_quote_cons hx.symm
  have ⟨zs, h₃, _⟩ := escape_eq_quote_cons hy.symm
  subst h₁ h₂ h₃
  simp [escape] at h

theorem unescape_escape (cs : List Char) : unescape (escape cs) = cs := by
  fun_induction escape cs
  case case1 => rfl
  case case2 cs hi => rw [unescape, hi]
  case case3 c cs _ hi =>
    rw [unescape.eq_3, hi]
    exact fun _ _ h => escape_ne_triple h

theorem endsWith_iff : endsWith cs ending ↔ ending <:+ cs := by
  simp [endsWith, List.isPrefixOf_iff_prefix]

def Closes (cs : List Char) : Prop :=
  ['\\', '"', '"', '"'] <:+ escape cs ∨ ¬['"'] <:+ cs ∧ ¬['\\'] <:+ cs

theorem Closes.tail (h : Closes (c :: cs)) (hq : ∀ ys, c = '"' → cs ≠ '"' :: '"' :: ys) : Closes cs := by
  cases h
  case inr h => exact .inr ⟨mt (List.suffix_cons_iff.mpr ∘ .inr) h.left, mt (List.suffix_cons_iff.mpr ∘ .inr) h.right⟩
  case inl h =>
    rw [escape.eq_3 _ _ fun ys hc he => hq ys hc he] at h
    cases List.suffix_cons_iff.mp h
    case inr h => exact .inl h
    case inl h => exact absurd (List.cons_eq_cons.mp h).right.symm escape_ne_triple

theorem Closes.of_triple (h : Closes ('"' :: '"' :: '"' :: cs)) : Closes cs := by
  cases h
  case inr h =>
    simp only [List.suffix_cons_iff, not_or] at h
    exact .inr ⟨h.left.right.right.right, h.right.right.right.right⟩
  case inl h =>
    have h : escape cs = [] ∨ ['\\', '"', '"', '"'] <:+ escape cs := by simpa [escape, List.suffix_cons_iff] using h
    cases h
    case inl h => simp [Closes, escape_eq_nil h]
    case inr h => exact .inl h

theorem quote_of_append (h : escape cs ++ ending = '"' :: rest) :
    (∃ xs, cs = '"' :: xs ∧ escape xs ++ ending = rest) ∨ cs = [] ∧ ending = '"' :: rest := by
  cases he : escape cs
  case nil => exact .inr ⟨escape_eq_nil he, by simpa [he] using h⟩
  case cons x xs =>
    rw [he, List.cons_append] at h
    have ⟨hx, hr⟩ := List.cons_eq_cons.mp h
    have ⟨ys, hc, hy⟩ := escape_eq_quote_cons (hx ▸ he)
    exact .inl ⟨ys, hc, hy ▸ hr⟩

theorem blockEnd_escape (h : Stops (· == '"') ending ∨ Closes cs) :
    Lexer.blockEnd n (escape cs ++ ending) = Lexer.blockEnd (n + (escape cs).length) ending := by
  fun_induction escape cs generalizing n
  case case1 => rfl
  case case2 cs hi =>
    simp only [List.cons_append, Lexer.blockEnd]
    rw [hi (h.imp_right Closes.of_triple)]
    simp only [List.length_cons]
    congr 1
    omega
  case case3 c cs hq hi =>
    -- Quotes of the ending would have to be those that the text does not end with.
    have two {t} (hc : c = '"' ∨ c = '\\') (he : escape cs ++ ending = '"' :: '"' :: t) :
        ∃ ys, cs = '"' :: '"' :: ys ∧ escape ys ++ ending = t := by
      have hn : ¬Closes [c] ∧ ¬Closes [c, '"'] := by
        rcases hc with rfl | rfl <;> simp [Closes, escape, List.suffix_cons_iff]
      rcases quote_of_append he with ⟨xs, hx, hs⟩ | ⟨hx, hs⟩
      · rcases quote_of_append hs with ⟨ys, hy, hs⟩ | ⟨hy, hs⟩
        · exact ⟨ys, by rw [hx, hy], hs⟩
        · exact absurd (h.resolve_left (by simp [hs])) (hx ▸ hy ▸ hn.right)
      · exact absurd (h.resolve_left (by simp [hs])) (hx ▸ hn.left)
    rw [List.cons_append, Lexer.blockEnd.eq_4, hi (h.imp_right fun h => h.tail hq), List.length_cons]
    · congr 1
      omega
    · intro t hc he
      obtain ⟨ys, hy, hs⟩ := two (.inr hc) he
      rcases quote_of_append hs with ⟨zs, hz, _⟩ | ⟨hz, hs⟩
      · simp [hy, hz, escape] at he
      · simp [hc, hy, hz, hs, Closes, escape, List.suffix_cons_iff] at h
    · intro t hc he
      obtain ⟨ys, hy, _⟩ := two (.inl hc) he
      exact hq ys hc hy

-- What a printed block string is made of: line breaks may stand at its ends.
theorem exists_of_print (text : String) (minimize : Bool) :
    ∃ opening closing, (print text minimize).toList =
        '"' :: '"' :: '"' :: (opening ++ (escape text.toList ++ (closing ++ ['"', '"', '"']))) ∧
      (opening = [] ∨ opening = ['\n']) ∧ (closing = ['\n'] ∨ closing = [] ∧ Closes text.toList) := by
  unfold print
  extract_lets cs escaped ls leadingBreak trailingTriple trailingBreak spread keepsFirst opening closing
  refine ⟨opening.toList, closing.toList, by simp [escaped, cs], ?opening, ?closing⟩
  case opening => simp only [opening]; split <;> simp
  case closing =>
    simp only [closing]
    split
    case isTrue  => exact .inl rfl
    case isFalse h =>
      refine .inr ⟨rfl, ?_⟩
      have ht : ¬trailingBreak := fun ht => h (by simp [ht])
      have ⟨h₁, h₂⟩ : (endsWith cs ['"'] → trailingTriple) ∧ ¬endsWith cs ['\\'] := by
        simpa [trailingBreak] using ht
      rw [endsWith_iff] at h₁ h₂
      by_cases hq : ['"'] <:+ cs
      case pos => exact .inl (endsWith_iff.mp (h₁ hq))
      case neg => exact .inr ⟨hq, h₂⟩

theorem spells_print (text : String) (minimize : Bool) :
    ∃ xs, (print text minimize).toList = '"' :: '"' :: '"' :: xs ∧
      ∀ rest, Lexer.blockEnd 3 (xs ++ rest) = .ok (3 + xs.length) := by
  have ⟨opening, closing, hp, ho, hc⟩ := exists_of_print text minimize
  refine ⟨_, hp, fun rest => ?_⟩
  have closed (n : Nat) : Lexer.blockEnd n (closing ++ '"' :: '"' :: '"' :: rest) = .ok (n + closing.length + 3) := by
    rcases hc with rfl | ⟨rfl, _⟩ <;> simp [Lexer.blockEnd]
  have hs : Stops (· == '"') (closing ++ '"' :: '"' :: '"' :: rest) ∨ Closes text.toList := by
    rcases hc with rfl | ⟨rfl, hc⟩
    · simp
    · exact .inr hc
  have opened : Lexer.blockEnd 3 (opening ++ (escape text.toList ++ (closing ++ '"' :: '"' :: '"' :: rest))) =
      Lexer.blockEnd (3 + opening.length) (escape text.toList ++ (closing ++ '"' :: '"' :: '"' :: rest)) := by
    rcases ho with rfl | rfl <;> simp [Lexer.blockEnd]
  simp only [List.append_assoc, List.cons_append, List.nil_append]
  rw [opened, blockEnd_escape hs, closed]
  simp
  omega

def isNewline (c : Char) : Bool :=
  c == '\n'

theorem getLast?_escape (cs : List Char) : (escape cs).getLast? = cs.getLast? := by
  fun_induction escape cs
  case case1 => rfl
  case case2 hi | case3 hi => simp [List.getLast?_cons, hi]

theorem trimmed_escape (h : Trimmed isNewline cs) : Trimmed isNewline (escape cs) := by
  constructor
  case left =>
    unfold escape
    split
    case h_1 => exact stops_nil
    case h_2 => simp [isNewline]
    case h_3 => simpa using h.left
  case right => simpa [Stops, getLast?_escape] using h.right

theorem print_injective {v w : String} (hv : Trimmed isNewline v.toList) (hw : Trimmed isNewline w.toList)
    (h : print v true = print w true) : v = w := by
  have breaks {xs : List Char} (h : xs = [] ∨ xs = ['\n']) : ∀ c ∈ xs, isNewline c := by
    rcases h with rfl | rfl <;> simp [isNewline]
  have ⟨ov, cv, hpv, hov, hcv⟩ := exists_of_print v true
  have ⟨ow, cw, hpw, how, hcw⟩ := exists_of_print w true
  have he : ov ++ (escape v.toList ++ cv) = ow ++ (escape w.toList ++ cw) := by
    have he := hpv.symm.trans (h ▸ hpw)
    simpa [← List.append_assoc] using he
  have hv' := (trimmed_escape hv).trim_append (breaks hov) (breaks <| hcv.symm.imp_left And.left)
  have hw' := (trimmed_escape hw).trim_append (breaks how) (breaks <| hcw.symm.imp_left And.left)
  rw [he, hw'] at hv'
  rw [← String.toList_inj, ← unescape_escape v.toList, ← hv', unescape_escape]

variable {l : List Char} {ls : List (List Char)}

theorem not_mem_of_mem_lines (h : l ∈ lines cs) : '\n' ∉ l := by
  fun_induction lines cs generalizing l
  case case1 => simp_all
  case case2 cs hi =>
    cases List.mem_cons.mp h
    case inl h => simp [h]
    case inr h => exact hi h
  case case3 c cs _ hc hi =>
    cases List.mem_cons.mp h
    case inl h => simp [h]
    case inr h => exact hi h
  case case4 c cs _ hc _ _ =>
    rw [List.mem_singleton.mp h, List.mem_singleton]
    exact fun he => hc (.inr he.symm)
  case case5 c cs _ hc l' ls hl hi =>
    cases List.mem_cons.mp h
    case inl h =>
      rw [h, List.mem_cons, not_or]
      exact ⟨fun he => hc (.inr he.symm), hi (hl ▸ List.mem_cons_self)⟩
    case inr h => exact hi (hl ▸ List.mem_cons_of_mem _ h)

theorem mem_of_mem_unescape (h : c ∈ unescape cs) : c ∈ cs := by
  fun_induction unescape cs <;> grind

theorem mem_of_mem_dedent (h : l ∈ dedent ls) (hc : c ∈ l) : ∃ l' ∈ ls, c ∈ l' := by
  cases ls
  case nil => cases h
  case cons first rest =>
    cases List.mem_cons.mp (mem_of_mem_trim h)
    case inl h => exact ⟨first, List.mem_cons_self, h ▸ hc⟩
    case inr h =>
      split at h
      case h_1 n _ =>
        have ⟨l', hl, he⟩ := List.mem_map.mp h
        exact ⟨l', List.mem_cons_of_mem _ hl, List.mem_of_mem_drop (he ▸ hc)⟩
      case h_2 =>
        have ⟨_, _, he⟩ := List.mem_map.mp h
        subst he
        cases hc

theorem trimmed_dedent (ls : List (List Char)) : Trimmed isEmptyLine (dedent ls) := by
  cases ls
  case nil => exact ⟨stops_nil, stops_nil⟩
  case cons => exact trimmed_trim isEmptyLine _

theorem exists_cons_of_not_isEmptyLine (h : ¬isEmptyLine l) (hn : '\n' ∉ l) :
    (∃ c cs, l = c :: cs ∧ ¬isNewline c) ∧ ∃ c cs, l.reverse = c :: cs ∧ ¬isNewline c := by
  have hl : l ≠ [] := by rintro rfl; simp [isEmptyLine] at h
  have ends {xs : List Char} (hx : xs ≠ []) (hm : '\n' ∉ xs) : ∃ c cs, xs = c :: cs ∧ ¬isNewline c := by
    have ⟨c, cs, he⟩ := List.exists_cons_of_ne_nil hx
    exact ⟨c, cs, he, fun hc => hm (he ▸ beq_iff_eq.mp hc ▸ List.mem_cons_self)⟩
  exact ⟨ends hl hn, ends (by simpa using hl) (by simpa using hn)⟩

theorem stops_intercalate (h : ∃ c cs, l = c :: cs ∧ ¬isNewline c) :
    Stops isNewline (['\n'].intercalate (l :: ls)) := by
  have ⟨c, cs, hc, hn⟩ := h
  cases ls <;> simpa [List.intercalate, hc] using hn

theorem exists_reverse_intercalate (ls : List (List Char)) (h : ∃ c cs, l.reverse = c :: cs ∧ ¬isNewline c) :
    ∃ c cs, (['\n'].intercalate (ls ++ [l])).reverse = c :: cs ∧ ¬isNewline c := by
  induction ls
  case nil => simpa [List.intercalate] using h
  case cons l' ls hi =>
    have ⟨c, cs, hc, hn⟩ := hi
    refine ⟨c, cs ++ '\n' :: l'.reverse, ?_, hn⟩
    cases ls <;> simp_all [List.intercalate]

theorem trimmed_intercalate (hn : ∀ l ∈ ls, '\n' ∉ l) (h : Trimmed isEmptyLine ls) :
    Trimmed isNewline (['\n'].intercalate ls) := by
  have ⟨hf, hl⟩ := h
  constructor
  case left =>
    cases ls
    case nil => exact stops_nil
    case cons l ls =>
      have hl := exists_cons_of_not_isEmptyLine (stops_cons.mp hf) (hn l List.mem_cons_self)
      exact stops_intercalate hl.left
  case right =>
    cases hr : ls.reverse
    case nil =>
      rw [List.reverse_eq_nil_iff.mp hr]
      exact stops_nil
    case cons l rs =>
      have he : ls = rs.reverse ++ [l] := by rw [← List.reverse_reverse ls, hr, List.reverse_cons]
      have hl := exists_cons_of_not_isEmptyLine (stops_cons.mp (hr ▸ hl)) (hn l (by simp [he]))
      have ⟨c, cs, hc, hn⟩ := exists_reverse_intercalate rs.reverse hl.right
      rw [he, hc]
      exact stops_cons.mpr hn

theorem trimmed_value (inside : List Char) : Trimmed isNewline (value inside).toList := by
  rw [value, String.toList_ofList]
  refine trimmed_intercalate (fun l hl hc => ?_) (trimmed_dedent _)
  have ⟨l', hl', hc⟩ := mem_of_mem_dedent hl hc
  have ⟨l'', hl'', he⟩ := List.mem_map.mp hl'
  exact not_mem_of_mem_lines hl'' (mem_of_mem_unescape (he ▸ hc))

end BlockText

end QueryGlean.Graphql
