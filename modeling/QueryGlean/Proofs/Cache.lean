import QueryGlean.Proofs.Extraction.Basic

namespace QueryGlean

variable {p q t u : String}

theorem append_eq_append_iff :
    p ++ t = q ++ u ↔ (∃ s, q = p ++ s ∧ t = s ++ u) ∨ (∃ s, p = q ++ s ∧ u = s ++ t) := by
  constructor
  case mp =>
    intro h
    have h := congrArg String.toList h
    simp only [String.toList_append, List.append_eq_append_iff] at h
    obtain ⟨cs, hq, ht⟩ | ⟨cs, hp, hu⟩ := h
    case inl =>
      refine .inl ⟨.ofList cs, ?_, ?_⟩
      · simpa [← String.toList_inj] using hq
      · simpa [← String.toList_inj] using ht
    case inr =>
      refine .inr ⟨.ofList cs, ?_, ?_⟩
      · simpa [← String.toList_inj] using hp
      · simpa [← String.toList_inj] using hu
  case mpr =>
    rintro (⟨s, rfl, rfl⟩ | ⟨s, rfl, rfl⟩)
    case inl => rw [String.append_assoc]
    case inr => rw [String.append_assoc]

theorem contentBytes_eq_toUTF8 (p t : String) : contentBytes p t = (p ++ t).toUTF8.data.toList := by
  simp [contentBytes, String.toUTF8, String.toByteArray_append]

-- Nothing tells where the path ends and the text begins.
theorem contentBytes_eq_iff_append_eq : contentBytes p t = contentBytes q u ↔ p ++ t = q ++ u := by
  rw [contentBytes_eq_toUTF8, contentBytes_eq_toUTF8, Array.toList_inj, ← ByteArray.ext_iff]
  exact String.toByteArray_inj

theorem contentBytes_eq_iff :
    contentBytes p t = contentBytes q u ↔
      (∃ s, q = p ++ s ∧ t = s ++ u) ∨ (∃ s, p = q ++ s ∧ u = s ++ t) :=
  contentBytes_eq_iff_append_eq.trans append_eq_append_iff

theorem contentBytes_not_injective :
    ("a.js", "x = graphql") ≠ ("a.jsx", " = graphql") ∧
      contentBytes "a.js" "x = graphql" = contentBytes "a.jsx" " = graphql" :=
  ⟨by decide, contentBytes_eq_iff_append_eq.mpr (by decide)⟩

end QueryGlean
