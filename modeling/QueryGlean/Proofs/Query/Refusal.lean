import QueryGlean.Proofs.Graphql.Ignored
import QueryGlean.Proofs.Query.Extract
import QueryGlean.Proofs.Query.Shapes

namespace QueryGlean

namespace QueryError

variable {text : String} {ds : List Graphql.Placed} {e : Graphql.SyntaxError}

theorem read_eq_ok_iff : read text = .ok ds ↔ Graphql.parse text = .ok ds := by
  constructor
  case mp =>
    intro h
    unfold read at h
    split at h
    case isTrue => cases h
    case isFalse =>
      split at h
      case h_1 => cases h
      case h_2 => cases h
      case h_3 hp =>
        cases h
        exact hp
  case mpr =>
    intro h
    have ⟨d, ds', hd⟩ := List.exists_cons_of_ne_nil (Graphql.ne_nil_of_parse h).left
    subst hd
    simp [read, Graphql.not_isBlankText_of_parse h, h]

-- No document is without definitions, so blank texts alone are empty.
theorem read_eq_empty_iff : read text = .error .empty ↔ isBlankText text := by
  unfold read
  split
  case isTrue h  => exact iff_of_true rfl h
  case isFalse h =>
    refine iff_of_false ?_ h
    split
    case h_1    => simp
    case h_2 hp => exact absurd rfl (Graphql.ne_nil_of_parse hp).left
    case h_3    => simp

theorem read_eq_invalid_iff :
    read text = .error (.invalid text e) ↔ ¬isBlankText text ∧ Graphql.parse text = .error e := by
  unfold read
  split
  case isTrue h  => simp [h]
  case isFalse h => split <;> simp_all

theorem read_ne_interpolation : read text ≠ .error .interpolation := by
  unfold read
  split
  case isTrue  => simp
  case isFalse => split <;> simp

end QueryError

namespace Matcher

variable {m : Matcher} {src : Source} {path : String} {T : TaggedTemplate} {ds : List Graphql.Placed} {e : QueryError}

theorem extract_of_hasSubstitutions (hs : T.hasSubstitutions) :
    m.extract src path T = .error ⟨.interpolation, path, src.byteOffset T.start⟩ := by
  unfold extract
  dsimp only
  rw [if_pos hs]

theorem extract_of_read_error {cause : QueryError.Cause} (hs : ¬T.hasSubstitutions)
    (hr : QueryError.read (T.rawText src) = .error cause) :
    m.extract src path T = .error ⟨cause, path, src.byteOffset T.start⟩ := by
  unfold extract
  dsimp only
  rw [if_neg hs, hr]

-- The cause is found without the file; the error adds the place of the template in it.
theorem extract_eq_error_iff :
    m.extract src path T = .error e ↔
      e.path = path ∧ e.offset = src.byteOffset T.start ∧
        (T.hasSubstitutions ∧ e.cause = .interpolation ∨
          ¬T.hasSubstitutions ∧ QueryError.read (T.rawText src) = .error e.cause) := by
  have error_iff (cause : QueryError.Cause) :
      (.error ⟨cause, path, src.byteOffset T.start⟩ : Except QueryError Query) = .error e ↔
        e.path = path ∧ e.offset = src.byteOffset T.start ∧ e.cause = cause := by
    rw [Except.error.injEq, QueryError.mk.injEq]
    grind
  by_cases hs : T.hasSubstitutions
  case pos => simp [extract_of_hasSubstitutions hs, error_iff, hs]
  case neg =>
    cases hr : QueryError.read (T.rawText src)
    case error cause => simp [extract_of_read_error hs hr, error_iff, hs, eq_comm]
    case ok ds =>
      rw [extract_of_parse (QueryError.read_eq_ok_iff.mp hr), if_neg hs]
      simp [hs]

theorem exists_extract_eq_ok_iff :
    (∃ q, m.extract src path T = .ok q ∧ q.definitions = ds ∧ ds ≠ []) ↔
      ¬T.hasSubstitutions ∧ Graphql.parse (T.rawText src) = .ok ds := by
  constructor
  case mp =>
    rintro ⟨q, hq, rfl, _⟩
    by_cases hs : T.hasSubstitutions
    case pos =>
      rw [extract_of_hasSubstitutions hs] at hq
      cases hq
    case neg =>
      refine ⟨hs, ?_⟩
      cases hr : QueryError.read (T.rawText src)
      case error =>
        rw [extract_of_read_error hs hr] at hq
        cases hq
      case ok =>
        have hp := QueryError.read_eq_ok_iff.mp hr
        rw [extract_of_parse hp, if_neg hs] at hq
        cases hq
        exact hp
  case mpr =>
    intro ⟨hs, hp⟩
    exact ⟨_, by rw [extract_of_parse hp, if_neg hs], rfl, (Graphql.ne_nil_of_parse hp).left⟩

-- Some texts are blank, and some hold nothing but what GraphQL ignores. Neither implies the other: a comment is
-- ignored and not blank, and a space that GraphQL does not know is blank and not ignored.
theorem extract_exact (m : Matcher) (src : Source) (path : String) (T : TaggedTemplate) :
    let raw := T.rawText src
    let refusedFor cause := m.extract src path T = .error ⟨cause, path, src.byteOffset T.start⟩
    (refusedFor .interpolation ↔ T.hasSubstitutions) ∧
    (refusedFor .empty ↔ ¬T.hasSubstitutions ∧ isBlankText raw) ∧
    (∀ e, refusedFor (.invalid raw e) ↔
      ¬T.hasSubstitutions ∧ ¬isBlankText raw ∧ Graphql.parse raw = .error e) ∧
    (∀ ds, (∃ q, m.extract src path T = .ok q ∧ q.definitions = ds ∧ ds ≠ []) ↔
      ¬T.hasSubstitutions ∧ Graphql.parse raw = .ok ds) ∧
    (∀ e, m.extract src path T = .error e ↔
      e.path = path ∧ e.offset = src.byteOffset T.start ∧ refusedFor e.cause) ∧
    (¬T.hasSubstitutions → Graphql.IsIgnored raw.toList →
      refusedFor (if isBlankText raw then .empty else .invalid raw ⟨.unexpected "<EOF>", raw.length⟩)) := by
  intro raw refusedFor
  have refused_iff (cause : QueryError.Cause) : refusedFor cause ↔
      (T.hasSubstitutions ∧ cause = .interpolation ∨ ¬T.hasSubstitutions ∧ QueryError.read raw = .error cause) := by
    simp [refusedFor, extract_eq_error_iff, raw]
  refine ⟨?_, ?_, ?_, ?_, ?_, ?_⟩
  · simp [refused_iff, QueryError.read_ne_interpolation]
  · simp [refused_iff, QueryError.read_eq_empty_iff]
  · simp [refused_iff, QueryError.read_eq_invalid_iff]
  · exact fun ds => exists_extract_eq_ok_iff
  · intro e
    rw [extract_eq_error_iff, refused_iff]
  · intro hs hi
    have hp := Graphql.parse_of_isIgnored hi
    rw [refused_iff]
    refine .inr ⟨hs, ?_⟩
    split
    case isTrue hb  => exact QueryError.read_eq_empty_iff.mpr hb
    case isFalse hb => exact QueryError.read_eq_invalid_iff.mpr ⟨hb, hp⟩

-- Nothing but a comment is no empty text, and a space that GraphQL does not know is one.
theorem refused_of_comment_and_space :
    let comment := Source.ofString "graphql\x60#later\x60"
    let T₁ := TaggedTemplate.spanning 0 15
    let space := Source.ofString "graphql\x60\u00A0\x60"
    let T₂ := TaggedTemplate.spanning 0 10
    (¬T₁.hasSubstitutions ∧ Graphql.IsIgnored (T₁.rawText comment).toList ∧
      (ofTree {} comment T₁.node).extract comment "a.js" T₁ =
        .error ⟨.invalid "#later" ⟨.unexpected "<EOF>", 6⟩, "a.js", 0⟩) ∧
    (¬T₂.hasSubstitutions ∧ ¬Graphql.IsIgnored (T₂.rawText space).toList ∧
      (ofTree {} space T₂.node).extract space "a.js" T₂ = .error ⟨.empty, "a.js", 0⟩) := by
  intro comment T₁ space T₂
  have r₁ : T₁.rawText comment = "#later" := by decide +kernel
  have r₂ : T₂.rawText space = "\u00A0" := by decide +kernel
  have i₁ : Graphql.IsIgnored (T₁.rawText comment).toList := Graphql.isIgnored_iff.mpr (by rw [r₁]; rfl)
  have i₂ : ¬Graphql.IsIgnored (T₂.rawText space).toList := fun h => by
    have h := Graphql.isIgnored_iff.mp h
    rw [r₂] at h
    cases h
  have p₁ : QueryError.read (T₁.rawText comment) = .error (.invalid "#later" ⟨.unexpected "<EOF>", 6⟩) := by
    rw [r₁] at i₁ ⊢
    exact QueryError.read_eq_invalid_iff.mpr ⟨by decide, Graphql.parse_of_isIgnored i₁⟩
  have p₂ : QueryError.read (T₂.rawText space) = .error .empty := by
    rw [r₂]
    exact QueryError.read_eq_empty_iff.mpr (by decide)
  exact ⟨⟨by decide, i₁, extract_of_read_error (by decide) p₁⟩, by decide, i₂, extract_of_read_error (by decide) p₂⟩

end Matcher

end QueryGlean
