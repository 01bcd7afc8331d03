import Mathlib
import QueryGlean.Proofs.Console.Markup
import QueryGlean.Proofs.Graphql.BlockText
import QueryGlean.Proofs.Outcome

namespace QueryGlean.Graphql

open Markup (Inert)
open Outcome

structure IsPlain (cs : List Char) : Prop where
  bracket : '[' ∉ cs
  escape  : ∀ ds n, '\\' :: ds <:+: cs → Quoted.escape? ('\\' :: ds) ≠ .ok ('[', n)

def Fault.quotes : Fault → List String
  | .unexpectedCharacter s | .leadingDot s | .digitAfterZero s | .digitExpected s | .badUnicodeEscape s
  | .badEscape s | .unexpected s | .reservedEnumValue s | .constantVariable s => [s]
  | .expected w f => [w, f]
  | _ => []

def Fault.IsInert (f : Fault) : Prop :=
  ∀ s ∈ f.quotes, Inert s

variable {c : Char} {cs ds : List Char} {n fuel i : Nat} {f : Fault}

theorem IsPlain.of_infix (h : IsPlain ds) (hi : cs <:+: ds) : IsPlain cs where
  bracket := fun hm => h.bracket (hi.subset hm)
  escape  := fun ds n he => h.escape ds n (he.trans hi)

theorem Fault.IsInert.message (h : f.IsInert) : Inert f.message := by
  have plain {s : String} (hs : '[' ∉ s.toList) : Inert s := .of_not_mem hs
  -- What stands between two texts without brackets.
  have around {s t u : String} (hs : '[' ∉ s.toList) (ht : Inert t) (hu : '[' ∉ u.toList) : Inert (s ++ t ++ u) :=
    ((plain hs).append ht).append (plain hu)
  unfold Fault.message
  split
  case h_2  => exact plain (by simp)
  case h_3  => exact plain (by simp)
  case h_7  => exact plain (by simp)
  case h_14 => exact plain (by simp)
  case h_15 => exact plain (by simp)
  case h_16 => exact plain (by simp)
  case h_11 =>
    have hw := h _ List.mem_cons_self
    have hg := h _ (List.mem_cons_of_mem _ (List.mem_singleton_self _))
    exact ((around (by simp [toString]) hw (by simp [toString])).append hg).append (plain (by simp [toString]))
  case h_12 => exact (h _ (List.mem_singleton_self _)).append (plain (by simp [toString]))
  all_goals exact around (by simp [toString]) (h _ (List.mem_singleton_self _)) (by simp [toString])

theorem exists_digitChar_of_mem_toDigitsCore {b : Nat} (hb : 0 < b) (h : c ∈ Nat.toDigitsCore b fuel n ds) :
    c ∈ ds ∨ ∃ d < b, c = Nat.digitChar d := by
  induction fuel generalizing n ds
  case zero => exact .inl h
  case succ fuel hi =>
    have digit (h : c ∈ Nat.digitChar (n % b) :: ds) : c ∈ ds ∨ ∃ d < b, c = Nat.digitChar d := by
      rcases List.mem_cons.mp h with h | h
      case inl => exact .inr ⟨_, Nat.mod_lt _ hb, h⟩
      case inr => exact .inl h
    unfold Nat.toDigitsCore at h
    dsimp only at h
    split at h
    case isTrue  => exact digit h
    case isFalse => exact (hi h).elim digit .inr

namespace Lexer

theorem not_mem_showChar? {o : Option Char} (h : o ≠ some '[') : '[' ∉ (showChar? o).toList := by
  unfold showChar?
  split
  case h_1 => simp
  case h_2 c =>
    dsimp only
    have hc : '[' ≠ c := fun he => h (by rw [he])
    split
    case isTrue  => simpa [toString] using hc
    case isFalse =>
      have hd : '[' ∉ (Nat.toDigits 16 c.toNat).map Char.toUpper := by
        intro hm
        obtain ⟨d, hd, he⟩ := List.mem_map.mp hm
        have hu : ∀ n < 16, (Nat.digitChar n).toUpper ≠ '[' := by decide
        rcases exists_digitChar_of_mem_toDigitsCore (by decide) hd with hd | ⟨n, hn, rfl⟩
        · cases hd
        · exact hu n hn he
      simpa [List.mem_replicate] using hd

theorem isInert_digits {m : Nat} (h : digits n cs = .error (f, m)) (hc : '[' ∉ cs) : f.IsInert := by
  unfold digits at h
  dsimp only at h
  split at h
  case isFalse => cases h
  case isTrue =>
    cases h
    refine List.forall_mem_singleton.mpr (.of_not_mem (not_mem_showChar? fun he => hc ?_))
    exact List.mem_of_mem_head? he

theorem isInert_wholePart {m : Nat} (h : wholePart n cs = .error (f, m)) (hc : '[' ∉ cs) : f.IsInert := by
  unfold wholePart at h
  split at h
  case h_2 => exact isInert_digits h hc
  case h_1 rest =>
    split at h
    case isFalse => cases h
    case isTrue =>
      cases h
      refine List.forall_mem_singleton.mpr (.of_not_mem (not_mem_showChar? fun he => hc ?_))
      exact List.mem_cons_of_mem _ (List.mem_of_mem_head? he)

theorem isInert_fractionPart {m : Nat} (h : fractionPart n cs = .error (f, m)) (hc : '[' ∉ cs) : f.IsInert := by
  unfold fractionPart at h
  split at h
  case h_1 => exact isInert_digits h fun hm => hc (List.mem_cons_of_mem _ hm)
  case h_2 => cases h

theorem isInert_exponentPart {m : Nat} (h : exponentPart n cs = .error (f, m)) (hc : '[' ∉ cs) : f.IsInert := by
  unfold exponentPart at h
  split at h
  case h_2 => cases h
  case h_1 =>
    split at h
    case isFalse => cases h
    case isTrue  => exact isInert_digits h fun hm => hc (List.mem_cons_of_mem _ (List.mem_of_mem_drop hm))

theorem isInert_number {m : Nat} (h : number cs = .error (f, m)) (hc : '[' ∉ cs) : f.IsInert := by
  have behind (k : Nat) : '[' ∉ cs.drop k := fun hm => hc (List.mem_of_mem_drop hm)
  unfold number at h
  rcases error_of_bind h with h | ⟨whole, _, h⟩
  case inl => exact isInert_wholePart h (behind _)
  rcases error_of_bind h with h | ⟨fraction, _, h⟩
  case inl => exact isInert_fractionPart h (behind _)
  rcases error_of_bind h with h | ⟨_, _, h⟩
  case inl => exact isInert_exponentPart h (behind _)
  split at h
  case h_2 => cases h
  case h_1 c he =>
    split at h
    case isFalse => cases h
    case isTrue =>
      cases h
      refine List.forall_mem_singleton.mpr (.of_not_mem (not_mem_showChar? fun hb => behind m ?_))
      exact List.mem_of_mem_head? (he.trans hb)

-- An escape without a meaning is quoted as it is written.
theorem exists_take_of_escape? {b : Quoted.BadEscape} (h : Quoted.escape? cs = .error b) :
    ∃ k, b = .unicode (String.ofList (cs.take k)) ∨ b = .character (String.ofList (cs.take k)) := by
  unfold Quoted.escape? at h
  split at h
  case h_1 =>
    split at h
    case h_1        => cases h
    case h_2 size _ => cases h; exact ⟨size, .inl rfl⟩
  case h_2 =>
    split at h
    case h_1 => cases h
    case h_2 => cases h; exact ⟨6, .inl rfl⟩
  case h_3 =>
    split at h
    case h_1 => cases h
    case h_2 => cases h; exact ⟨2, .inr rfl⟩
  case h_4 => cases h; exact ⟨cs.length, .inr (by rw [List.take_length])⟩

theorem isInert_of_quotes_nil (h : f.quotes = []) : f.IsInert :=
  fun s hs => by simp [h] at hs

theorem isInert_stringEnd {m : Nat} (h : stringEnd fuel n cs = .error (f, m)) (hc : '[' ∉ cs) : f.IsInert := by
  induction fuel generalizing n cs
  case zero => cases h; exact isInert_of_quotes_nil rfl
  case succ fuel hi =>
    cases cs
    case nil => cases h; exact isInert_of_quotes_nil rfl
    case cons c cs =>
      -- What is quoted of an escape is the text from its backslash on.
      have taken (k : Nat) : Inert (String.ofList ((c :: cs).take k)) := by
        refine .of_not_mem ?_
        rw [String.toList_ofList]
        exact fun hm => hc (List.mem_of_mem_take hm)
      unfold stringEnd at h
      split at h
      case isTrue => cases h
      case isFalse =>
        split at h
        case isTrue => cases h; exact isInert_of_quotes_nil rfl
        case isFalse =>
          split at h
          case isFalse => exact hi h fun hm => hc (List.mem_cons_of_mem _ hm)
          case isTrue =>
            split at h
            case h_1 => exact hi h fun hm => hc (List.mem_of_mem_drop hm)
            case h_2 he =>
              cases h
              obtain ⟨k, hk | hk⟩ := exists_take_of_escape? he
              · cases hk; exact List.forall_mem_singleton.mpr (taken k)
              · cases hk
            case h_3 he =>
              cases h
              obtain ⟨k, hk | hk⟩ := exists_take_of_escape? he
              · cases hk
              · cases hk; exact List.forall_mem_singleton.mpr (taken k)

theorem isInert_blockEnd {m : Nat} (h : blockEnd n cs = .error (f, m)) : f.IsInert := by
  fun_induction blockEnd n cs
  case case1       => cases h; exact isInert_of_quotes_nil rfl
  case case2 hi    => exact hi h
  case case3       => cases h
  case case4 hi    => exact hi h

theorem isInert_measure {m : Nat} (h : measure c cs = .error (f, m)) (hc : '[' ∉ c :: cs) : f.IsInert := by
  have shown : Inert (showChar? (some c)) :=
    .of_not_mem (not_mem_showChar? fun he => hc (Option.some.inj he ▸ List.mem_cons_self))
  cases h ▸ measures c cs
  case badNumber h => exact isInert_number h hc
  case badBlock h  => exact isInert_blockEnd h
  case badString h => exact isInert_stringEnd h fun hm => hc (List.mem_cons_of_mem _ hm)
  case doubleDot   => exact isInert_of_quotes_nil rfl
  case singleQuote => exact isInert_of_quotes_nil rfl
  case stray       => exact List.forall_mem_singleton.mpr shown
  case leadingDot  =>
    refine List.forall_mem_singleton.mpr (.of_not_mem ?_)
    rw [String.toList_ofList]
    exact fun hm => hc (List.mem_cons_of_mem _ ((List.takeWhile_prefix _).subset hm))

theorem isInert_scan {e : SyntaxError} (h : (scan fuel i cs).failure = some e) (hc : '[' ∉ cs) : e.fault.IsInert := by
  induction fuel generalizing i cs
  case zero => cases h
  case succ fuel hi =>
    cases cs
    case nil => cases h
    case cons c cs =>
      have hcs : '[' ∉ cs := fun hm => hc (List.mem_cons_of_mem _ hm)
      unfold scan at h
      split at h
      case isTrue => exact hi h hcs
      case isFalse =>
        split at h
        case isTrue => exact hi h fun hm => hcs (List.mem_of_mem_drop hm)
        case isFalse =>
          split at h
          case h_1 he => cases h; exact isInert_measure he hc
          case h_2    => exact hi h fun hm => hc (List.mem_of_mem_drop hm)

-- A token is spelled as the text is at its place.
theorem isInfix_of_mem_scan {t : Token} (h : t ∈ (scan fuel i cs).tokens) : t.spelling.toList <:+: cs := by
  induction fuel generalizing i cs
  case zero => cases h
  case succ fuel hi =>
    cases cs
    case nil => cases h
    case cons c cs =>
      have hs : cs <:+: c :: cs := (List.suffix_cons c cs).isInfix
      unfold scan at h
      split at h
      case isTrue => exact (hi h).trans hs
      case isFalse =>
        split at h
        case isTrue => exact (hi h).trans ((List.drop_suffix _ _).isInfix.trans hs)
        case isFalse =>
          split at h
          case h_1 => cases h
          case h_2 n _ =>
            rcases List.mem_cons.mp h with rfl | h
            case inl =>
              rw [String.toList_ofList]
              exact (List.take_prefix _ _).isInfix
            case inr => exact (hi h).trans (List.drop_suffix _ _).isInfix

end Lexer

theorem not_mem_valueWithin (h : IsPlain cs) : '[' ∉ Quoted.valueWithin fuel cs := by
  induction fuel generalizing cs
  case zero => simp [Quoted.valueWithin]
  case succ fuel hi =>
    cases cs
    case nil => simp [Quoted.valueWithin]
    case cons c cs =>
      have behind := hi (h.of_infix (List.suffix_cons c cs).isInfix)
      unfold Quoted.valueWithin
      split
      case isFalse =>
        rw [List.mem_cons, not_or]
        exact ⟨fun hc => h.bracket (hc ▸ List.mem_cons_self), behind⟩
      case isTrue hc =>
        split
        case h_2 => exact behind
        case h_1 he =>
          rw [List.mem_cons, not_or]
          refine ⟨?_, hi (h.of_infix (List.drop_suffix _ _).isInfix)⟩
          rintro rfl
          subst hc
          exact h.escape _ _ List.infix_rfl he

theorem mem_of_mem_lines {l : List Char} (h : l ∈ BlockText.lines cs) (hc : c ∈ l) : c ∈ cs := by
  fun_induction BlockText.lines cs generalizing l <;> grind

theorem mem_of_mem_intercalate {sep : List Char} {ls : List (List Char)} (h : c ∈ sep.intercalate ls) :
    c ∈ sep ∨ ∃ l ∈ ls, c ∈ l := by
  induction ls
  case nil => simp at h
  case cons l ls hi =>
    cases ls
    case nil => exact .inr ⟨l, List.mem_cons_self, by simpa using h⟩
    case cons l' ls =>
      rw [List.intercalate_cons_cons, List.mem_append, List.mem_append] at h
      rcases h with (h | h) | h
      · exact .inr ⟨l, List.mem_cons_self, h⟩
      · exact .inl h
      · exact (hi h).imp_right fun ⟨l, hl, hc⟩ => ⟨l, List.mem_cons_of_mem _ hl, hc⟩

theorem not_mem_blockValue (h : '[' ∉ cs) : '[' ∉ (BlockText.value cs).toList := by
  rw [BlockText.value, String.toList_ofList]
  intro hm
  rcases mem_of_mem_intercalate hm with hm | ⟨l, hl, hm⟩
  case inl => simp at hm
  case inr =>
    obtain ⟨l', hl', hm⟩ := BlockText.mem_of_mem_dedent hl hm
    obtain ⟨l'', hl'', rfl⟩ := List.mem_map.mp hl'
    exact h (mem_of_mem_lines hl'' (BlockText.mem_of_mem_unescape hm))

theorem Lexeme.not_mem_value {l : Lexeme} (h : IsPlain l.spelling.toList) : '[' ∉ l.value.toList := by
  have inside (n : Nat) : IsPlain ((l.spelling.toList.drop n).take (l.spelling.length - 2 * n)) :=
    h.of_infix ((List.take_prefix _ _).isInfix.trans (List.drop_suffix _ _).isInfix)
  unfold value
  dsimp only
  split
  case h_1 =>
    rw [Quoted.value, String.toList_ofList]
    exact not_mem_valueWithin (inside 1)
  case h_2 => exact not_mem_blockValue (inside 3).bracket
  case h_3 => exact h.bracket

theorem TokenKind.inert_label (k : TokenKind) : Inert k.label := by
  cases k <;> decide +kernel

theorem Lexeme.inert_label {l : Lexeme} (h : IsPlain l.spelling.toList) : Inert l.label := by
  unfold label
  split
  case isTrue => exact l.kind.inert_label
  case isFalse =>
    have hv : Inert l.value := .of_not_mem (not_mem_value h)
    exact ((l.kind.inert_label.append (.of_not_mem (by simp [toString]))).append hv).append (.of_not_mem (by simp [toString]))

end QueryGlean.Graphql
