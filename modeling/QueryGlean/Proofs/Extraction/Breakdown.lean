import Mathlib
import QueryGlean.Proofs.Extraction.Events
import QueryGlean.Proofs.Extraction.History
import QueryGlean.Proofs.Query.Extract
import QueryGlean.Proofs.Query.Shapes

namespace QueryGlean

open Outcome

-- A preprocessor that fails, or offers nothing, or offers texts.
def Preprocessor.OffersTexts (p : Preprocessor) : Prop :=
  ∀ path text v, p path text = .ok v → v = .null ∨ ∃ ts : List String, v = .list (ts.map .text)

-- Why a definition makes no fragment, whatever it would be called.
def Graphql.Definition.unfit? (d : Definition) : Option UnfitDefinition :=
  match d with
  | .schema .. | .extendSchema .. => some (.unnamable d)
  | .extendDirective ..           => some (.undefining d)
  | _                             => none

def Matcher.failure? (m : Matcher) (src : Source) (path : String) (f : Find) : Option ExtractionError :=
  match m.extract src path f.template with
  | .error e => some (.query e)
  | .ok q    => (q.definitions.findSome? (·.definition.unfit?)).map .unfit

def Parsed.failure? (p : Parsed) (settings : Settings) (path : String) : Option ExtractionError :=
  let m := Matcher.ofTree settings p.source p.root
  (m.finds p.source p.root).findSome? (m.failure? p.source path)

variable {m : Matcher} {src : Source} {path text : String} {f : Find} {fs : List Find} {q : Query}
variable {d : Graphql.Placed} {ds : List Graphql.Placed} {e : ExtractionError} {u : UnfitDefinition}
variable {warned : List Nat} {settings : Settings} {vs : List Value} {ps : List Preprocessor} {ls : List Language}
variable {i : Nat} {p : Parsed} {b : Breakdown} {files : FileTree} {cache : Cache} {r : ExtractionResult}

theorem Find.error?_fragment (f : Find) (src : Source) (path : String) (q : Query) (d : Graphql.Placed) :
    error? (f.fragment src path q d) = d.definition.unfit?.map .unfit := by
  obtain ⟨definition, start⟩ := d
  cases definition
  case operation _ _ n _ _ _ => cases n <;> rfl
  all_goals rfl

theorem Find.error?_fragments (f : Find) (src : Source) (path : String) (q : Query) :
    error? (f.fragments src path q) = (q.definitions.findSome? (·.definition.unfit?)).map .unfit := by
  rw [fragments, error?_mapM, List.map_findSome?]
  simp only [error?_fragment]
  rfl

theorem Matcher.error?_normalize (warned : List Nat) :
    error? (m.normalize src path warned f).result = m.failure? src path f := by
  unfold normalize failure?
  cases m.extract src path f.template
  case error => rfl
  case ok q =>
    dsimp only
    split <;> exact f.error?_fragments src path q

theorem Matcher.failure?_of_parse (hp : Graphql.parse (f.template.rawText src) = .ok ds)
    (hs : f.template.hasSubstitutions = false) :
    m.failure? src path f = (ds.findSome? (·.definition.unfit?)).map .unfit := by
  simp [failure?, extract_of_parse hp, hs]

-- A find that is in order does not keep the work from going on.
theorem Matcher.error?_normalizeAll (warned : List Nat) :
    error? (m.normalizeAll src path warned fs).1 = fs.findSome? (m.failure? src path) := by
  induction fs generalizing warned
  case nil => rfl
  case cons f fs hi =>
    rw [List.findSome?_cons, ← error?_normalize warned, normalizeAll]
    dsimp only
    cases (m.normalize src path warned f).result
    case error => rfl
    case ok gs => exact (error?_map ..).trans (hi _)

theorem Parsed.error?_fragments (p : Parsed) (settings : Settings) (path : String) :
    error? (p.fragments settings path).1 = p.failure? settings path :=
  (error?_map ..).trans (Matcher.error?_normalizeAll [])

theorem Value.candidates_list (vs : List Value) : (Value.list vs).candidates = .ok vs := by
  cases vs <;> rfl

theorem Preprocessor.texts_of_candidates (hp : ∀ p ∈ ps, Preprocessor.OffersTexts p)
    (h : Preprocessor.candidates path text ps = .ok vs) : ∃ ts : List String, vs = ts.map .text := by
  induction ps generalizing vs
  case nil =>
    cases h
    exact ⟨[], rfl⟩
  case cons p ps hi =>
    have ⟨hp, hps⟩ := List.forall_mem_cons.mp hp
    unfold candidates at h
    have ⟨v, hv, h⟩ := ok_of_bind h
    have ⟨here, hh, h⟩ := ok_of_bind h
    have ⟨rest, hr, h⟩ := ok_of_bind h
    have ⟨later, hl⟩ := hi hps hr
    have hv : p path text = .ok v := by
      cases he : p path text <;> rw [he] at hv <;> cases hv
      rfl
    cases h
    cases hp path text v hv
    case inl hn =>
      subst hn
      cases hh
      exact ⟨later, hl⟩
    case inr hn =>
      have ⟨ts, ht⟩ := hn
      rw [ht, Value.candidates_list] at hh
      cases hh
      exact ⟨ts ++ later, by rw [hl, List.map_append]⟩

theorem Reading.error?_firstCandidate (ts : List String) :
    error? (firstCandidate path ls i (ts.map .text)).1 = none := by
  induction ts generalizing i
  case nil => rfl
  case cons t ts hi =>
    rw [List.map_cons]
    unfold firstCandidate
    split
    case h_1 => rfl
    case h_2 => exact hi

theorem Reading.error?_source (hp : ∀ p ∈ ps, Preprocessor.OffersTexts p) :
    error? (source ps path text).1 = none := by
  unfold source
  dsimp only
  split
  case h_1 => rfl
  case h_2 => split <;> rfl
  case h_3 hc =>
    have ⟨ts, ht⟩ := Preprocessor.texts_of_candidates hp hc
    exact ht ▸ error?_firstCandidate ts

namespace Extractor

variable {x : Extractor}

theorem outcome_eq_error_iff (hp : ∀ p ∈ x.preprocessors, Preprocessor.OffersTexts p) :
    (x.outcome path text).1 = .error b ↔
      ∃ p u, b = .unfit u ∧ (Reading.source x.preprocessors path text).1 = .ok (some p) ∧
        p.failure? x.settings path = some (.unfit u) := by
  have hs : error? (Reading.source x.preprocessors path text).1 = none := Reading.error?_source hp
  simp only [← Parsed.error?_fragments, error?_eq_some_iff]
  unfold outcome
  split
  case h_1 h => simp [h, error?] at hs
  case h_2 h => simp [h]
  case h_3 p es h =>
    rw [h]
    dsimp only
    split <;> grind

theorem eq_error_iff_of_settled {o : Except Breakdown ExtractionResult} {es : List Event}
    (h : x.sight files path = .settled o es) :
    o = .error b ↔ b = .nulPath ∧ FileTree.hasNul (Path.ofString path) := by
  rw [← FileTree.readText_eq_nulByte_iff (t := files)]
  cases settlesAtSight h
  case nulPath hr       => simp [hr, eq_comm]
  case unreadable hr hn => simpa [hr] using fun _ => hn
  case untagged hr _    => simp [hr]

theorem not_hasNul_of_contents (h : x.sight files path = .contents text) :
    FileTree.hasNul (Path.ofString path) = false :=
  (FileTree.readText_eq_ok_iff.mp (sight_eq_contents_iff.mp h).left).left

theorem extract_eq_error_iff (hp : ∀ p ∈ x.preprocessors, Preprocessor.OffersTexts p) :
    (x.extract files cache path).result = .error b ↔
      b = .nulPath ∧ FileTree.hasNul (Path.ofString path) ∨
      ∃ text, x.sight files path = .contents text ∧ cache.find? (contentKey path text) = none ∧
        ∃ p u, b = .unfit u ∧ (Reading.source x.preprocessors path text).1 = .ok (some p) ∧
          p.failure? x.settings path = some (.unfit u) := by
  cases hs : x.sight files path
  case settled o es => simp [extract_of_settled hs, eq_error_iff_of_settled hs]
  case contents text =>
    simp only [not_hasNul_of_contents hs, Bool.false_eq_true, and_false, false_or]
    cases hf : cache.find? (contentKey path text)
    case some e => simp [extract_of_hit hs hf, hf]
    case none =>
      rw [result_of_miss hs hf, ← error?_eq_some_iff, error?_map, error?_eq_some_iff, outcome_eq_error_iff hp]
      simp [hf]

theorem failsWith_of_settled {es : List Event} {reason : FailureReason}
    (h : x.sight files path = .settled (.ok r) es) (hs : r.status.failure? = some reason) :
    FailsWith path reason es := by
  cases settlesAtSight h <;> cases hs
  case unreadable => exact ⟨[], _, _, rfl, rfl, rfl⟩

-- A failure has no fragments, so that no success is told behind it.
theorem failsWith_of_extract {reason : FailureReason} (h : (x.extract files cache path).result = .ok r)
    (hc : r.cached = false) (hs : r.status.failure? = some reason) :
    FailsWith path reason (x.extract files cache path).events := by
  cases ht : x.sight files path
  case settled o es =>
    rw [extract_of_settled ht] at h ⊢
    cases h
    exact failsWith_of_settled ht hs
  case contents text =>
    cases hf : cache.find? (contentKey path text)
    case some e =>
      rw [extract_of_hit ht hf] at h
      cases h
      simp [answer_cached] at hc
    case none =>
      rw [result_of_miss ht hf] at h
      have ⟨e, ho, he⟩ := ok_of_map h
      have hw := wellFormed_of_outcome ho
      rw [← he, answer_status hw] at hs
      have hn : e.fragments = [] := by
        refine Decidable.byContradiction fun hn => ?_
        rw [hw.extracted hn] at hs
        cases hs
      rw [events_of_miss ht hf, ho, successOfOutcome, successOf, hn]
      simpa using failsWith_of_outcome ho hs

-- Left out are paths and texts that have no UTF-8 form, and GraphQL so deeply nested that reading it would exhaust a
-- stack.
theorem extract_contained (hp : ∀ p ∈ x.preprocessors, Preprocessor.OffersTexts p) (files : FileTree)
    (cache : Cache) (path : String) :
    let run := x.extract files cache path
    (∀ b, run.result = .error b ↔
      b = .nulPath ∧ FileTree.hasNul (Path.ofString path) ∨
      ∃ text, x.sight files path = .contents text ∧ cache.find? (contentKey path text) = none ∧
        ∃ p u, b = .unfit u ∧ (Reading.source x.preprocessors path text).1 = .ok (some p) ∧
          p.failure? x.settings path = some (.unfit u)) ∧
    (∀ r reason, run.result = .ok r → r.cached = false → r.status.failure? = some reason →
      (∃ d, .reported d ∈ run.events ∧ d.severity = .error ∧ d.filePath = path) ∧
      ∃ error, .failed path reason error ∈ run.events) := by
  refine ⟨fun b => extract_eq_error_iff hp, fun r reason hr hc hs => ?_⟩
  have ⟨init, d, error, he, hd⟩ := failsWith_of_extract hr hc hs
  rw [he]
  exact ⟨⟨d, by simp, hd⟩, error, by simp⟩

end Extractor

-- A path that no file can have, and a file of which nothing can be made.
theorem Extractor.extract_contained_of_failing :
    let files : FileTree := { entries := [(["a.js"], .file Action.tag)] }
    (∀ p ∈ failing.preprocessors, Preprocessor.OffersTexts p) ∧
    (failing.extract files {} "a\x00.js").result = .error .nulPath ∧
    ∃ r, (failing.extract files {} "a.js").result = .ok r ∧ r.status = .parseError ∧
      ∃ error, .failed "a.js" .parse error ∈ (failing.extract files {} "a.js").events := by
  intro files
  have hp : ∀ p ∈ failing.preprocessors, Preprocessor.OffersTexts p :=
    List.forall_mem_singleton.mpr fun _ _ _ h => nomatch h
  have hn : FileTree.hasNul (Path.ofString "a\x00.js") := by cbv
  have hr : Call.Reads ⟨"a.js", files, {}⟩ "graphql" := reads_tag
  have hs : failing.sight files "a.js" = .contents "graphql" := sight_eq_contents_iff.mpr ⟨hr, by decide⟩
  have ho : (failing.extract files {} "a.js").result = .ok ⟨"a.js", .parseError, none, false⟩ :=
    result_of_miss hs rfl
  obtain ⟨broken, _⟩ := extract_contained hp files {} "a\x00.js"
  obtain ⟨_, told⟩ := extract_contained hp files {} "a.js"
  exact ⟨hp, (broken _).mpr (.inl ⟨rfl, hn⟩), _, ho, rfl, (told _ _ ho rfl rfl).right⟩

-- The text of a file that exports the definition of a schema, and the tree that it is read as.
def exportedSchema : String :=
  "export const s = graphql\x60schema\x7bquery:Q\x7d\x60"

def Tree.exportedSchema : Tree :=
  .node .phrase none 0 41 [
    .node .exportStatement none 0 41 [
      .leaf .mark 0 6,
      .node .phrase none 7 41 [
        .leaf .mark 7 12,
        .node .declarator none 13 41 [
          .node .identifier (some .name) 13 14 [],
          .leaf .mark 15 16,
          .node .call (some .value) 17 41 [
            .node .identifier (some .callee) 17 24 [],
            .node .template (some .arguments) 24 41 [.leaf .mark 24 25, .leaf .word 25 40, .leaf .mark 40 41]]]]]]

theorem Parsed.fragments_exportedSchema :
    (Parsed.fragments ⟨.javascript, .ofString exportedSchema, .exportedSchema⟩ {} "a.js").1 =
      .error (.unfit (.unnamable (.schema none [] [⟨.query, "Q"⟩]))) := by
  let tag : Tree := .node .identifier (some .callee) 17 24 []
  let template : Tree :=
    .node .template (some .arguments) 24 41 [.leaf .mark 24 25, .leaf .word 25 40, .leaf .mark 40 41]
  let T : TaggedTemplate := ⟨.node .call (some .value) 17 41 [tag, template], tag, template⟩
  have hf : (Matcher.ofTree {} (.ofString exportedSchema) .exportedSchema).finds (.ofString exportedSchema)
      .exportedSchema = [⟨.pageQuery, T⟩] := by cbv
  have hr : T.rawText (.ofString exportedSchema) = "schema\x7bquery:Q\x7d" := by decide +kernel
  have hp : Graphql.parse (T.rawText (.ofString exportedSchema)) = .ok [⟨.schema none [] [⟨.query, "Q"⟩], 0⟩] := by
    rw [hr]
    cbv
  rw [← error?_eq_some_iff, Parsed.error?_fragments, Parsed.failure?]
  dsimp only
  rw [hf, List.findSome?_singleton, Matcher.failure?_of_parse (f := ⟨.pageQuery, T⟩) hp rfl]
  rfl

theorem breaksDown_of_nul_and_schema :
    (({ settings := {} } : Extractor).extract {} {} "a\x00.js").result = .error .nulPath ∧
    (Parsed.fragments ⟨.javascript, .ofString exportedSchema, .exportedSchema⟩ {} "a.js").1 =
      .error (.unfit (.unnamable (.schema none [] [⟨.query, "Q"⟩]))) := by
  constructor
  case left  => cbv
  case right => exact Parsed.fragments_exportedSchema

end QueryGlean
