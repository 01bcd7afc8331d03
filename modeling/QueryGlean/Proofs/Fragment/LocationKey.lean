import Std.Data.String.ToInt
import QueryGlean.Fragment

namespace QueryGlean

-- The first hyphen ends the first number, whatever follows: the second number may have hyphens itself.
theorem append_cons_inj_of_not_mem {α} {a : α} {xs ys us vs : List α} (hx : a ∉ xs) (hy : a ∉ ys)
    (h : xs ++ a :: us = ys ++ a :: vs) : xs = ys ∧ us = vs := by
  induction xs generalizing ys
  case nil =>
    cases ys
    case nil      => exact ⟨rfl, (List.cons_eq_cons.mp h).right⟩
    case cons y _ => exact absurd (List.mem_cons.mpr <| .inl (List.cons_eq_cons.mp h).left) hy
  case cons x xs hi =>
    cases ys
    case nil => exact absurd (List.mem_cons.mpr <| .inl (List.cons_eq_cons.mp h).left.symm) hx
    case cons y ys =>
      have ⟨he, ht⟩ := List.cons_eq_cons.mp h
      have ⟨hi₁, hi₂⟩ := hi (mt (List.mem_cons_of_mem x) hx) (mt (List.mem_cons_of_mem y) hy) ht
      exact ⟨by rw [he, hi₁], hi₂⟩

theorem hyphen_not_mem_toDigits (n : Nat) : '-' ∉ Nat.toDigits 10 n := by
  intro h
  have hd := Nat.isDigit_of_mem_toDigits (by decide) (by decide) h
  simp [Char.isDigit] at hd

theorem toList_repr (a : Int) : ∃ c cs, a.repr.toList = c :: cs ∧ '-' ∉ cs := by
  cases a
  case ofNat n =>
    have hm := hyphen_not_mem_toDigits n
    cases hd : Nat.toDigits 10 n
    case nil => exact absurd hd Nat.toDigits_ne_nil
    case cons c cs =>
      refine ⟨c, cs, by simp [Int.repr, hd], fun h => hm ?_⟩
      exact hd ▸ List.mem_cons_of_mem c h
  case negSucc n =>
    exact ⟨'-', Nat.toDigits 10 n.succ, by simp [Int.repr], hyphen_not_mem_toDigits _⟩

theorem toList_locationKey (a b : Int) :
    (locationKey a b).toList = a.repr.toList ++ '-' :: b.repr.toList := by
  simp [locationKey, toString]

theorem eq_of_locationKey_eq {a b c d : Int} (h : locationKey a b = locationKey c d) : a = c ∧ b = d := by
  have ⟨x, xs, hx, hxs⟩ := toList_repr a
  have ⟨y, ys, hy, hys⟩ := toList_repr c
  have hl := congrArg String.toList h
  rw [toList_locationKey, toList_locationKey, hx, hy, List.cons_append, List.cons_append] at hl
  have ⟨h₁, h₂⟩ := List.cons_eq_cons.mp hl
  have ⟨h₃, h₄⟩ := append_cons_inj_of_not_mem hxs hys h₂
  constructor
  case left  => exact Int.repr_injective <| String.toList_inj.mp <| by rw [hx, hy, h₁, h₃]
  case right => exact Int.repr_injective <| String.toList_inj.mp h₄

theorem locationKey_eq_iff {a b c d : Int} : locationKey a b = locationKey c d ↔ a = c ∧ b = d :=
  ⟨eq_of_locationKey_eq, fun ⟨ha, hb⟩ => by rw [ha, hb]⟩

end QueryGlean
