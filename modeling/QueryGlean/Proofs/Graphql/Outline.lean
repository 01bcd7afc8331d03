import QueryGlean.Graphql.Printer
import QueryGlean.Proofs.Graphql.BlockText
import QueryGlean.Proofs.Graphql.Name
import QueryGlean.Proofs.Graphql.QuotedText

namespace QueryGlean.Graphql

structure Outline where
  kind : TokenKind
  word : String
deriving DecidableEq

def Outline.mark (k : TokenKind) : Outline :=
  ⟨k, ""⟩

def Outline.name (n : String) : Outline :=
  ⟨.name, n⟩

def Lexeme.outline (l : Lexeme) : Outline :=
  ⟨l.kind, if l.kind = .name then l.spelling else ""⟩

open Outline (mark)

inductive Writes : List Char → List Outline → Prop
  | nil : Writes [] []
  | blank {c cs os} (hc : Lexer.isIgnored c) (h : Writes cs os) : Writes (c :: cs) os
  | token {k c xs cs os} (hs : Lexer.Spells k c xs) (hl : k = .blockString ∨ '\n' ∉ xs)
    (hr : k.isPunctuator ∨ Stops Lexer.runsOn cs) (h : Writes cs os) :
    Writes (c :: (xs ++ cs)) (Lexeme.outline ⟨k, String.ofList (c :: xs)⟩ :: os)

variable {c : Char} {k : TokenKind} {cs xs ys : List Char} {os ps : List Outline} {s : String} {fuel i : Nat}

theorem Writes.scan (h : Writes cs os) (hf : cs.length < fuel) :
    (Lexer.scan fuel i cs).failure = none ∧ (Lexer.scan fuel i cs).tokens.map (·.toLexeme.outline) = os := by
  induction h generalizing fuel i
  case nil => cases fuel <;> exact ⟨rfl, rfl⟩
  case blank c cs os hc _ hi =>
    obtain ⟨n, hn⟩ := Nat.exists_eq_add_one_of_ne_zero (Nat.ne_zero_of_lt hf)
    subst hn
    rw [Lexer.scan, if_pos hc]
    exact hi (Nat.lt_of_succ_lt_succ hf)
  case token k c xs cs os hs _ hr _ hi =>
    obtain ⟨n, hn⟩ := Nat.exists_eq_add_one_of_ne_zero (Nat.ne_zero_of_lt hf)
    subst hn
    have hl : cs.length < n := by
      simp only [List.length_cons, List.length_append] at hf
      omega
    obtain ⟨h₁, h₂⟩ := hi (i := i + (1 + xs.length)) hl
    rw [Lexer.scan_append hs hr]
    exact ⟨h₁, by rw [List.map_cons, h₂]⟩

theorem Writes.ofString {text : String} (h : Writes text.toList os) :
    (TokenStream.ofString text).failure = none ∧
      (TokenStream.ofString text).tokens.map (·.toLexeme.outline) = os :=
  h.scan (Nat.lt_succ_self _)

theorem Writes.eq (h₁ : Writes cs os) (h₂ : Writes cs ps) : os = ps :=
  (h₁.scan (i := 0) (Nat.lt_succ_self _)).right.symm.trans (h₂.scan (Nat.lt_succ_self _)).right

namespace Writes

theorem append (hx : Writes xs os) (hy : Writes ys ps)
    (hs : (∀ o ∈ os, o.kind.isPunctuator) ∨ Stops Lexer.runsOn ys) : Writes (xs ++ ys) (os ++ ps) := by
  induction hx
  case nil => exact hy
  case blank hc _ hi => exact .blank hc (hi hs)
  case token cs os hk hl hr _ hi =>
    rw [List.cons_append, List.append_assoc]
    refine .token hk hl ?_ (hi (hs.imp_left fun h o ho => h o (List.mem_cons_of_mem _ ho)))
    cases cs
    case nil  => exact hs.imp_left fun h => h _ List.mem_cons_self
    case cons => simpa using hr

theorem blanks (h : Writes cs os) (hx : ∀ c ∈ xs, Lexer.isIgnored c) : Writes (xs ++ cs) os := by
  induction xs
  case nil => exact h
  case cons x xs hi =>
    exact .blank (hx x List.mem_cons_self) (hi fun c hc => hx c (List.mem_cons_of_mem _ hc))

theorem marked (hk : TokenKind.ofChar? c = some k) (h : Writes cs os) : Writes (c :: cs) (mark k :: os) := by
  have hp : k.isPunctuator := by simp [TokenKind.isPunctuator, TokenKind.mark?_of_ofChar? hk]
  have hn : k ≠ .name := by rintro rfl; cases hp
  have ho : Lexeme.outline ⟨k, String.ofList [c]⟩ = mark k := by simp [Lexeme.outline, mark, hn]
  exact ho ▸ .token (.mark hk) (.inr (by simp)) (.inl hp) h

theorem spread (h : Writes cs os) : Writes ('.' :: '.' :: '.' :: cs) (mark .spread :: os) :=
  .token .spread (.inr (by decide)) (.inl rfl) h

theorem named (h : isName s) : Writes s.toList [.name s] := by
  unfold isName at h
  split at h
  case h_1 => cases h
  case h_2 c xs hc =>
    have ⟨hs, hx⟩ : Lexer.isNameStart c ∧ ∀ x ∈ xs, Lexer.isNamePart x := by simpa using h
    have hl : '\n' ∉ xs := fun hl => absurd (hx _ hl) (by decide)
    have hw := token (.name hs hx) (.inr hl) (.inr stops_nil) .nil
    rwa [List.append_nil, ← hc, String.ofList_toList] at hw

theorem number {b : Bool} (h : Lexer.IsNumber s.toList b) : Writes s.toList [mark (if b then .float else .int)] := by
  have ⟨c, xs, hc, _⟩ := h.exists_cons
  have hn := h.not_mem
  rw [hc] at h hn
  have hw := token (.number h) (.inr (mt (List.mem_cons_of_mem c) hn)) (.inr stops_nil) .nil
  have ho : Lexeme.outline ⟨if b then .float else .int, String.ofList (c :: xs)⟩ = mark (if b then .float else .int) := by
    cases b <;> rfl
  rwa [List.append_nil, ho, ← hc] at hw

theorem quoted (text : String) : Writes (Quoted.print text).toList [mark .string] := by
  have ⟨xs, hp, hn, hs⟩ := Quoted.spells_print text
  have hw := token hs (.inr hn) (.inr stops_nil) .nil
  rwa [List.append_nil, ← hp] at hw

theorem block (text : String) (minimize : Bool) :
    Writes (BlockText.print text minimize).toList [mark .blockString] := by
  have ⟨xs, hp, hx⟩ := BlockText.spells_print text minimize
  have hw := token (.block hx) (.inl rfl) (.inr stops_nil) .nil
  rwa [List.append_nil, ← hp] at hw

def breaks (cs : List Char) : List Char :=
  cs.flatMap fun c => if c = '\n' then ['\n', ' ', ' '] else [c]

theorem breaks_cons : breaks (c :: cs) = (if c = '\n' then ['\n', ' ', ' '] else [c]) ++ breaks cs :=
  List.flatMap_cons

theorem breaks_append : breaks (xs ++ ys) = breaks xs ++ breaks ys :=
  List.flatMap_append

theorem breaks_eq_self (h : '\n' ∉ cs) : breaks cs = cs := by
  induction cs
  case nil => rfl
  case cons c cs hi =>
    have ⟨hc, hs⟩ := not_or.mp (mt List.mem_cons.mpr h)
    rw [breaks_cons, if_neg (Ne.symm hc), hi hs]
    rfl

theorem stops_breaks (h : Stops Lexer.runsOn cs) : Stops Lexer.runsOn (breaks cs) := by
  cases cs
  case nil => exact stops_nil
  case cons c cs =>
    rw [breaks_cons]
    split
    case isTrue  => exact stops_cons.mpr (by decide)
    case isFalse => simpa using h

theorem quote_of_breaks (hl : 0 < cs.length) (h : breaks cs ++ ys = '"' :: xs) :
    ∃ cs', cs = '"' :: cs' ∧ breaks cs' ++ ys = xs := by
  have ⟨c, cs', hs⟩ := List.exists_cons_of_ne_nil (List.ne_nil_of_length_pos hl)
  subst hs
  rw [breaks_cons] at h
  split at h
  case isTrue => simp at h
  case isFalse =>
    have ⟨he, hx⟩ := List.cons_eq_cons.mp h
    exact ⟨cs', by rw [he], hx⟩

theorem two_quotes_of_breaks (hl : 2 ≤ cs.length) (h : breaks cs ++ ys = '"' :: '"' :: xs) :
    ∃ cs', cs = '"' :: '"' :: cs' ∧ breaks cs' ++ ys = xs := by
  have ⟨as, ha, h₁⟩ := quote_of_breaks (by omega) h
  subst ha
  have ⟨cs', hc, h₂⟩ := quote_of_breaks (by simp at hl; omega) h₁
  exact ⟨cs', by rw [hc], h₂⟩

theorem blockEnd_breaks {n m : Nat} (h : Lexer.blockEnd n cs = .ok (n + cs.length)) :
    Lexer.blockEnd m (breaks cs ++ ys) = .ok (m + (breaks cs).length) := by
  fun_induction Lexer.blockEnd n cs generalizing m
  case case1 => cases h
  case case2 cs hi =>
    have hi := hi (m := m + 4) (by rw [h]; simp; omega)
    simp [breaks_cons, Lexer.blockEnd, hi]
    omega
  case case3 cs =>
    have hl : cs = [] := by simpa using h
    subst hl
    rfl
  case case4 n c cs h₁ h₂ hi =>
    have h : Lexer.blockEnd (n + 1) cs = .ok (n + 1 + cs.length) := by rw [h]; simp; omega
    obtain ⟨_, _, he, _, hl, _⟩ := Lexer.exists_of_blockEnd h
    have hl : 3 ≤ cs.length := by rw [he, List.length_append]; omega
    rw [breaks_cons]
    split
    case isTrue =>
      simp [Lexer.blockEnd, hi h]
      omega
    case isFalse =>
      rw [List.singleton_append, List.cons_append, Lexer.blockEnd.eq_4, hi h]
      · simp only [List.length_cons]
        congr 1
        omega
      -- Breaks bring no quotes: what would end the string here would have ended it before.
      · intro t hc hb
        obtain ⟨as, ha, hb⟩ := two_quotes_of_breaks (Nat.le_of_succ_le hl) hb
        obtain ⟨cs', hs, _⟩ := quote_of_breaks (by simp [ha] at hl; omega) hb
        exact h₁ cs' hc (by rw [ha, hs])
      · intro t hc hb
        obtain ⟨cs', hs, _⟩ := two_quotes_of_breaks (Nat.le_of_succ_le hl) hb
        exact h₂ cs' hc hs

theorem spells_breaks (h : Lexer.Spells .blockString c xs) : Lexer.Spells .blockString c (breaks xs) := by
  generalize hk : TokenKind.blockString = k at h
  cases h
  case block xs hx =>
    have h : Lexer.blockEnd 3 xs = .ok (3 + xs.length) := by simpa using hx []
    exact .block fun rest => blockEnd_breaks h
  case mark h =>
    subst hk
    cases TokenKind.mark?_of_ofChar? h
  case number b _ => cases b <;> cases hk
  all_goals cases hk

theorem indented (h : Writes cs os) : Writes (breaks cs) os := by
  induction h
  case nil => exact .nil
  case blank c cs os hc _ hi =>
    rw [breaks_cons]
    refine hi.blanks fun x hx => ?_
    split at hx
    case isTrue  => exact List.all_eq_true.mp (by decide) x hx
    case isFalse => simpa [List.mem_singleton.mp hx] using hc
  case token k c xs cs os hs hl hr _ hi =>
    have hc : c ≠ '\n' := by rintro rfl; exact absurd rfl hs.not_isIgnored.left
    rw [breaks_cons, if_neg hc, breaks_append]
    have hr : k.isPunctuator ∨ Stops Lexer.runsOn (breaks cs) := hr.imp_right stops_breaks
    cases hl
    case inr hl =>
      rw [breaks_eq_self hl]
      exact .token hs (.inr hl) hr hi
    case inl hk =>
      subst hk
      have hw := token (spells_breaks hs) (.inl rfl) hr hi
      exact hw

end Writes
end QueryGlean.Graphql
