
namespace QueryGlean

variable {α : Type} {x : α} {xs rest front back : List α} {n : Nat} {p q : α → Bool}

def Stops (p : α → Bool) (xs : List α) : Prop :=
  ¬xs.head?.any p

@[simp]
theorem stops_nil : Stops p [] := by
  simp [Stops]

@[simp]
theorem stops_cons : Stops p (x :: xs) ↔ ¬p x := by
  simp [Stops]

theorem Stops.mono (h : Stops p xs) (hq : ∀ x, q x → p x) : Stops q xs := by
  cases xs
  case nil       => exact stops_nil
  case cons x xs => exact stops_cons.mpr <| mt (hq x) (stops_cons.mp h)

theorem Stops.of_isPrefix (h : Stops p xs) (hp : rest <+: xs) : Stops p rest := by
  have ⟨_, he⟩ := hp
  subst he
  cases rest
  case nil  => exact stops_nil
  case cons => simpa using h

theorem stops_append (hn : xs ≠ []) (h : ∀ x ∈ xs, ¬p x) : Stops p (xs ++ rest) := by
  cases xs
  case nil  => exact absurd rfl hn
  case cons => exact stops_cons.mpr (h _ List.mem_cons_self)

theorem Stops.dropWhile_eq (h : Stops p xs) : xs.dropWhile p = xs := by
  cases xs <;> simp_all

theorem Stops.eq_nil (h : Stops p xs) (hn : Stops (!p ·) xs) : xs = [] := by
  cases xs <;> simp_all

theorem Stops.eq_nil_of_forall (h : Stops p xs) (hp : ∀ x ∈ xs, p x) : xs = [] := by
  cases xs <;> simp_all

theorem stops_iff_takeWhile : Stops p xs ↔ xs.takeWhile p = [] := by
  cases xs <;> simp [List.takeWhile_cons]

theorem stops_dropWhile (p : α → Bool) (xs : List α) : Stops p (xs.dropWhile p) := by
  have := List.head?_dropWhile_not p xs
  cases h : xs.dropWhile p <;> simp_all

theorem takeWhile_append_eq (hp : ∀ x ∈ xs, p x) (hr : Stops p rest) : (xs ++ rest).takeWhile p = xs := by
  rw [List.takeWhile_append_of_pos hp]
  cases rest <;> simp_all

theorem dropWhile_append_eq (hp : ∀ x ∈ xs, p x) (hr : Stops p rest) : (xs ++ rest).dropWhile p = rest := by
  rw [List.dropWhile_append_of_pos hp, hr.dropWhile_eq]

theorem exists_takeWhile (p : α → Bool) (xs : List α) :
    ∃ rest, xs = xs.takeWhile p ++ rest ∧ Stops p rest :=
  ⟨xs.dropWhile p, by simp, stops_dropWhile p xs⟩

theorem drop_add_length {ys : List α} (h : ys.drop n = xs ++ rest) : ys.drop (n + xs.length) = rest := by
  rw [← List.drop_drop, h, List.drop_left]

theorem infix_intercalate {part : List α} {parts : List (List α)} (sep : List α) (h : part ∈ parts) :
    part <:+: sep.intercalate parts := by
  induction parts
  case nil => cases h
  case cons p parts hi =>
    cases parts
    case nil => simp [List.mem_singleton.mp h]
    case cons q parts =>
      rw [List.intercalate_cons_cons]
      rcases List.mem_cons.mp h with rfl | h
      case inl =>
        rw [List.append_assoc]
        exact (List.prefix_append _ _).isInfix
      case inr => exact (hi h).trans (List.suffix_append _ _).isInfix

def Trimmed (p : α → Bool) (xs : List α) : Prop :=
  Stops p xs ∧ Stops p xs.reverse

def trim (p : α → Bool) (xs : List α) : List α :=
  ((xs.dropWhile p).reverse.dropWhile p).reverse

theorem trimmed_trim (p : α → Bool) (xs : List α) : Trimmed p (trim p xs) := by
  constructor
  case left =>
    have h : (xs.dropWhile p).reverse.dropWhile p <:+ (xs.dropWhile p).reverse := List.dropWhile_suffix p
    have h := List.reverse_prefix.mpr h
    rw [List.reverse_reverse] at h
    exact (stops_dropWhile p xs).of_isPrefix h
  case right =>
    rw [trim, List.reverse_reverse]
    exact stops_dropWhile p _

theorem mem_of_mem_trim (h : x ∈ trim p xs) : x ∈ xs := by
  have h := (List.dropWhile_sublist p).mem (List.mem_reverse.mp h)
  exact (List.dropWhile_sublist p).mem (List.mem_reverse.mp h)

theorem Trimmed.trim_append (h : Trimmed p xs) (hf : ∀ x ∈ front, p x) (hb : ∀ x ∈ back, p x) :
    trim p (front ++ (xs ++ back)) = xs := by
  have hb' : (back.reverse ++ xs.reverse).dropWhile p = xs.reverse :=
    dropWhile_append_eq (by simpa using hb) h.right
  rw [trim, List.dropWhile_append_of_pos hf]
  cases xs
  case nil =>
    have hn : (back ++ []).dropWhile p = [] := List.dropWhile_append_of_pos hb
    rw [List.append_nil] at hn
    rw [List.nil_append, hn]
    rfl
  case cons x xs =>
    have hs : Stops p (x :: xs ++ back) := by simpa using h.left
    rw [hs.dropWhile_eq, List.reverse_append, hb', List.reverse_reverse]

end QueryGlean
