import QueryGlean.Proofs.Graphql.Lexemes
import QueryGlean.Query.Extract

namespace QueryGlean.Matcher

open Graphql

variable {m : Matcher} {src : Source} {path : String} {T : TaggedTemplate} {ds : List Placed}

inductive Extracts (m : Matcher) (src : Source) (path : String) (T : TaggedTemplate) : Except QueryError Query → Prop
  | interpolated (inserted : T.hasSubstitutions) :
      Extracts m src path T (.error ⟨.interpolation, path, src.byteOffset T.start⟩)
  | blank (whole : ¬T.hasSubstitutions) (blank : isBlankText (T.rawText src)) :
      Extracts m src path T (.error ⟨.empty, path, src.byteOffset T.start⟩)
  | invalid {e : SyntaxError} (whole : ¬T.hasSubstitutions) (filled : ¬isBlankText (T.rawText src))
      (parse : parse (T.rawText src) = .error e) :
      Extracts m src path T (.error ⟨.invalid (T.rawText src) e, path, src.byteOffset T.start⟩)
  | read {ds : List Placed} (whole : ¬T.hasSubstitutions) (parse : parse (T.rawText src) = .ok ds) :
      Extracts m src path T (.ok {
        definitions := ds
        rawText := T.rawText src
        text := compact (T.rawText src)
        hash := Name.contentHash (compact (T.rawText src))
        isGlobal := m.isGlobal src T })

theorem extracts (m : Matcher) (src : Source) (path : String) (T : TaggedTemplate) :
    m.Extracts src path T (m.extract src path T) := by
  by_cases hs : T.hasSubstitutions
  case pos =>
    simp only [extract, hs, if_true]
    exact .interpolated hs
  case neg =>
    simp only [extract, hs, QueryError.read]
    by_cases hb : isBlankText (T.rawText src)
    case pos =>
      simp only [hb, if_true]
      exact .blank hs hb
    case neg =>
      simp only [hb]
      cases hp : parse (T.rawText src)
      case error e => exact .invalid hs hb hp
      case ok ds =>
        cases ds
        case nil  => exact absurd rfl (ne_nil_of_parse hp).left
        case cons => exact .read hs hp

theorem extract_of_parse (hp : parse (T.rawText src) = .ok ds) :
    m.extract src path T =
      if T.hasSubstitutions then .error ⟨.interpolation, path, src.byteOffset T.start⟩
      else .ok {
        definitions := ds
        rawText := T.rawText src
        text := compact (T.rawText src)
        hash := Name.contentHash (compact (T.rawText src))
        isGlobal := m.isGlobal src T } := by
  have hx := m.extracts src path T
  generalize m.extract src path T = r at hx ⊢
  cases hx
  case interpolated hs => rw [if_pos hs]
  case blank hb        => simp [not_isBlankText_of_parse hp] at hb
  case invalid he      => cases he.symm.trans hp
  case read hs hp' =>
    cases Except.ok.inj (hp'.symm.trans hp)
    rw [if_neg hs]

theorem isSome_extract_of_parse (hp : parse (T.rawText src) = .ok ds) :
    (m.extract src path T).toOption.isSome = !T.hasSubstitutions := by
  rw [extract_of_parse hp]
  cases T.hasSubstitutions <;> rfl

end QueryGlean.Matcher
