import Mathlib
import QueryGlean.Proofs.Console.Markup
import QueryGlean.Proofs.Outcome

namespace QueryGlean.Markup

structure IsVerbatim (cs : List Char) : Prop where
  untagged  : ¬ HasTag cs
  unescaped : ¬ ['\\', '['] <:+: cs
  visible   : ∀ c ∈ cs, isControl c = false

variable {c : Char} {cs : List Char} {fuel : ℕ} {ps : List Piece} {ts : List OpenTag} {style : String}

theorem length_visible_le (cs : List Char) : (visible cs).length ≤ cs.length :=
  List.length_filter_le _ _

theorem visible_eq_self_iff : visible cs = cs ↔ ∀ c ∈ cs, isControl c = false := by
  simp [visible, List.filter_eq_self]

theorem length_unescape_le (cs : List Char) : (unescape cs).length ≤ cs.length := by
  fun_induction unescape cs <;> (simp_all; try omega)

theorem unescape_eq_self_iff : unescape cs = cs ↔ ¬ ['\\', '['] <:+: cs := by
  fun_induction unescape cs
  case case1 cs hi =>
    have hl := length_unescape_le cs
    refine iff_of_false (fun h => ?_) (not_not.mpr ⟨[], cs, rfl⟩)
    have he := congrArg List.length h
    simp only [List.length_cons] at he
    omega
  case case2 c cs hn hi =>
    rw [List.cons.injEq, List.infix_cons_iff, hi, not_or]
    refine ⟨fun h => ⟨?_, h.right⟩, fun h => ⟨rfl, h.right⟩⟩
    rintro ⟨rest, he⟩
    exact hn rest (List.cons.inj he).left.symm (List.cons.inj he).right.symm
  case case3 => simp

theorem visible_unescape_eq_self_iff :
    visible (unescape cs) = cs ↔ ¬ ['\\', '['] <:+: cs ∧ ∀ c ∈ cs, isControl c = false := by
  rw [← unescape_eq_self_iff, ← visible_eq_self_iff]
  constructor
  case mp =>
    intro h
    have hl : (unescape cs).length ≤ (visible (unescape cs)).length := by rw [h]; exact length_unescape_le cs
    have hv : visible (unescape cs) = unescape cs := List.filter_sublist.eq_of_length_le hl
    have hu : unescape cs = cs := hv.symm.trans h
    exact ⟨hu, by rwa [hu] at h⟩
  case mpr => exact fun ⟨hu, hv⟩ => by rw [hu, hv]

def Piece.size : Piece → ℕ
  | text cs => cs.length
  | tag _   => 0

theorem length_shown_le {out : List Char} (h : shown ts ps = .ok out) : out.length ≤ (ps.map Piece.size).sum := by
  induction ps generalizing ts out
  case nil => cases h; simp
  case cons p ps hi =>
    rw [List.map_cons, List.sum_cons]
    have tail {ts out} (h : shown ts ps = .ok out) : out.length ≤ p.size + (ps.map Piece.size).sum :=
      (hi h).trans (Nat.le_add_left _ _)
    unfold shown at h
    split at h
    case h_1 he => cases he
    case h_2 he =>
      cases he
      obtain ⟨out, ho, rfl⟩ := Outcome.ok_of_map h
      rw [List.length_append]
      exact Nat.add_le_add ((length_visible_le _).trans (length_unescape_le _)) (hi ho)
    -- A tag shows nothing, so what is shown is what is behind it.
    case h_3 he =>
      cases he
      split at h
      case h_1 => cases h
      case h_2 =>
        obtain ⟨_, _, h⟩ := Outcome.ok_of_bind h
        exact tail h
      case h_3 =>
        obtain ⟨_, _, h⟩ := Outcome.ok_of_bind h
        split at h
        case h_1 =>
          obtain ⟨_, _, h⟩ := Outcome.ok_of_bind h
          exact tail h
        case h_2 => cases h
    case h_4 he =>
      cases he
      obtain ⟨_, _, h⟩ := Outcome.ok_of_bind h
      obtain ⟨out, ho, h⟩ := Outcome.ok_of_bind h
      obtain ⟨_, _, h⟩ := Outcome.ok_of_bind h
      cases h
      exact tail ho

-- Nothing is shown that the text does not have, and of a tag something is left out.
theorem size_cut (acc : List Char) (fuel : ℕ) (cs : List Char) :
    ((cut acc fuel cs).map Piece.size).sum ≤ acc.length + cs.length ∧
      (HasTag cs → ((cut acc fuel cs).map Piece.size).sum < acc.length + cs.length) := by
  induction fuel generalizing acc cs
  case zero =>
    refine ⟨by simp [cut, Piece.size], ?_⟩
    rintro ⟨before, content, rest, rfl, _⟩
    simp [cut, Piece.size]
  case succ fuel hi =>
    rcases cut_cases cs with h | ⟨slashes, ds, hs, rfl⟩ | ⟨before, ds, hb, hn, rfl, hc⟩
    case inl =>
      have ht : ¬ HasTag cs := not_hasTag_of_not_mem fun hm => absurd (h _ hm) (by decide)
      exact ⟨by simp [cut_of_slashes h, Piece.size], fun h => absurd h ht⟩
    case inr.inl =>
      have hn : '[' ∉ slashes := fun hm => absurd (hs _ hm) (by decide)
      rw [cut_bracket hs, hasTag_append hn, hasTag_bracket, List.length_append, List.length_cons]
      cases ht : tag? ds
      case none =>
        obtain ⟨hle, hlt⟩ := hi ('[' :: (slashes.reverse ++ acc)) ds
        simp only [List.length_cons, List.length_append, List.length_reverse] at hle hlt
        refine ⟨by dsimp only; omega, fun h => ?_⟩
        have := hlt (h.resolve_left (by simp))
        dsimp only
        omega
      case some p =>
        obtain ⟨content, rest⟩ := p
        -- A tag loses its brackets, and one that is text the backslash in front of it.
        have hl := congrArg List.length (tag?_eq_some_iff.mp ht).left
        have hle := (hi [] rest).left
        rw [List.length_append, List.length_cons] at hl
        rw [List.length_nil] at hle
        have hlt : ((Piece.text acc.reverse :: .text (List.replicate (slashes.length / 2) '\\') ::
            (if slashes.length % 2 = 1 then .text ('[' :: content ++ [']']) else .tag content) ::
              cut [] fuel rest).map Piece.size).sum < acc.length + (slashes.length + (ds.length + 1)) := by
          split <;> simp [Piece.size] <;> omega
        exact ⟨hlt.le, fun _ => hlt⟩
    case inr.inr =>
      have hcut := hc acc fuel []
      rw [List.append_nil, List.append_nil] at hcut
      obtain ⟨hle, hlt⟩ := hi (before.reverse ++ acc) ds
      rw [hcut, hasTag_append hn]
      simp only [List.length_append, List.length_reverse] at hle hlt ⊢
      exact ⟨by omega, fun h => by have := hlt h; omega⟩

theorem length_render_lt {s : String} {out : List Char} (ht : HasTag s.toList) (h : render s = .ok out) :
    out.length < s.toList.length := by
  have hs := (size_cut [] (s.toList.length + 1) s.toList).right ht
  rw [List.length_nil, Nat.zero_add] at hs
  exact Nat.lt_of_le_of_lt (length_shown_le h) hs

theorem render_eq_self_iff {s : String} : render s = .ok s.toList ↔ IsVerbatim s.toList := by
  constructor
  case mp =>
    intro h
    have ht : ¬ HasTag s.toList := fun ht => Nat.lt_irrefl _ (length_render_lt ht h)
    rw [render_of_not_hasTag ht, Except.ok.injEq, visible_unescape_eq_self_iff] at h
    exact ⟨ht, h.left, h.right⟩
  case mpr =>
    intro ⟨ht, hu, hv⟩
    rw [render_of_not_hasTag ht, visible_unescape_eq_self_iff.mpr ⟨hu, hv⟩]

theorem IsVerbatim.visible_unescape (h : IsVerbatim cs) : Markup.visible (unescape cs) = cs :=
  visible_unescape_eq_self_iff.mpr ⟨h.unescaped, h.visible⟩

theorem IsVerbatim.of_not_mem (h : '[' ∉ cs) (hv : ∀ c ∈ cs, isControl c = false) : IsVerbatim cs where
  untagged  := not_hasTag_of_not_mem h
  unescaped := fun hi => h (hi.subset (by simp))
  visible   := hv

theorem isVerbatim_toString (n : ℤ) : IsVerbatim (toString n).toList := by
  refine .of_not_mem (not_mem_toString n) fun c hc => ?_
  rcases isDigit_of_mem_toString hc with rfl | hd
  case inl => simp [isControl]
  case inr =>
    have hn {d : Char} (h : d.isDigit = false) : c ≠ d := fun he => by simp [he, h] at hd
    simp [isControl, hn]

theorem IsVerbatim.cons (h : IsVerbatim cs) (hb : c ≠ '[') (hs : c ≠ '\\') (hc : isControl c = false) :
    IsVerbatim (c :: cs) where
  untagged  := fun ht => h.untagged ((hasTag_cons hb).mp ht)
  unescaped := by
    rw [List.infix_cons_iff, not_or]
    refine ⟨?_, h.unescaped⟩
    rintro ⟨rest, he⟩
    exact hs (List.cons.inj he).left.symm
  visible   := List.forall_mem_cons.mpr ⟨hc, h.visible⟩

theorem shown_blank (cs : List Char) :
    shown [] (cut [] ((' ' :: cs).length + 1) (' ' :: cs)) = (shown [] (cut [] (cs.length + 1) cs)).map (' ' :: ·) := by
  obtain ⟨ds, ps, hc⟩ := cut_acc (cs.length + 1) cs
  rw [List.length_cons, cut_of_ne (by decide) (by decide), hc, hc, shown_text, shown_text]
  cases shown [] ps <;> rfl

theorem render_labelled {s m : String} {label : String} (hs : style ∈ messageStyles) (ht : '[' ∉ label.toList)
    (hv : IsVerbatim label.toList) (hl : ¬ ['\\'] <:+ label.toList)
    (he : s.toList = styled style label.toList (' ' :: m.toList)) :
    render s = (render m).map (label.toList ++ ' ' :: ·) := by
  rw [render_label hs (not_hasTag_of_not_mem ht) hl he, shown_blank, hv.visible_unescape, render]
  cases shown [] (cut [] (m.toList.length + 1) m.toList) <;> rfl

end QueryGlean.Markup
