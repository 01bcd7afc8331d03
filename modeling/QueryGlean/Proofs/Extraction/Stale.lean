import QueryGlean.Proofs.Extraction.Events
import QueryGlean.Proofs.Extraction.History

namespace QueryGlean

def Cache.Settled (c : Cache) : Prop :=
  ∀ key e, c.find? key = some e → e.WellFormed ∧ e.status ≠ .queryError

structure Account where
  cache : Cache := {}
  sink  : Collector := {}

structure Visit where
  preprocessors : List Preprocessor
  files : FileTree
  path : String

def Visit.run (s : Settings) (cache : Cache) (v : Visit) : Run ExtractionResult :=
  Extractor.extract ⟨s, v.preprocessors⟩ v.files cache v.path

namespace Account

def visit (s : Settings) (a : Account) (v : Visit) : Account where
  cache := (v.run s a.cache).cache
  sink  := a.sink.recordAll (v.run s a.cache).events

def after (s : Settings) (vs : List Visit) : Account :=
  vs.foldl (visit s) {}

end Account

-- What a call that gives a result does to the markers:
-- 1. a file that could not be read, or has an invalid query, is stale
-- 2. a file that could not be parsed is stale, unless the cache told so: then it is as stale as before
-- 3. a file that has fragments is not stale
-- 4. other files are as stale as before
structure Marks (path : String) (before after : Collector) (r : ExtractionResult) : Prop where
  failed    : r.status = .readError ∨ r.status = .queryError → after.isStale path
  unparsed  : r.status = .parseError → after.isStale path = (before.isStale path || !r.cached)
  extracted : r.status = .extracted → ¬after.isStale path
  others    : ∀ other ≠ path, after.isStale other = before.isStale other

variable {x : Extractor} {files : FileTree} {cache : Cache} {path other text : String} {e : CacheEntry}
variable {r : ExtractionResult} {sink : Collector} {s : Settings} {vs : List Visit} {v : Visit}

theorem CacheEntry.WellFormed.status_eq_extracted_iff (h : e.WellFormed) :
    e.status = .extracted ↔ e.fragments ≠ [] := by
  constructor
  case mpr => exact h.extracted
  case mp =>
    intro hs hf
    have hm := h.otherwise hf
    simp [hs] at hm

theorem CacheEntry.WellFormed.status_ne_readError (h : e.WellFormed) : e.status ≠ .readError := by
  intro hs
  have hm := h.status_mem
  simp [hs] at hm

namespace Extractor

theorem isStale_successOf (h : e.WellFormed) :
    (sink.recordAll (successOf path e)).isStale path =
      (sink.isStale path && e.status != .extracted) := by
  unfold successOf
  by_cases hf : e.fragments = []
  case pos => simp [hf, mt h.status_eq_extracted_iff.mp, Collector.recordAll]
  case neg => simp [hf, h.extracted hf, Collector.recordAll, Collector.isStale_record]

theorem isStale_successOf_of_ne (h : other ≠ path) :
    (sink.recordAll (successOf path e)).isStale other = sink.isStale other := by
  unfold successOf
  split
  case isTrue  => rfl
  case isFalse => simp [Collector.recordAll, Collector.isStale_record, h]

theorem settled_extract (h : cache.Settled) : (x.extract files cache path).cache.Settled := by
  intro key e he
  cases hs : x.sight files path
  case settled r es =>
    rw [extract_of_settled hs] at he
    exact h key e he
  case contents text =>
    cases hf : cache.find? (contentKey path text)
    case some e' =>
      rw [extract_of_hit hs hf, Cache.find?_get] at he
      exact h key e he
    case none =>
      cases (find?_of_miss hs hf).mp he
      case inl he => exact h key e he
      case inr he => exact ⟨wellFormed_of_outcome he.right.outcome, he.right.status⟩

theorem marks_of_settled {es : List Event} (h : x.sight files path = .settled (.ok r) es) :
    Marks path sink (sink.recordAll es) r := by
  cases settlesAtSight h
  case unreadable =>
    refine ⟨fun _ => ?_, by simp, by simp, fun other ho => ?_⟩
    · exact EndsInFailure.isStale ⟨[_], _, _, rfl⟩ sink
    · simp [Collector.recordAll, Collector.isStale_record, ho]
  case untagged => exact ⟨by simp, by simp, by simp, fun _ _ => rfl⟩

theorem marks_of_hit (h : e.WellFormed) (hq : e.status ≠ .queryError) :
    Marks path sink (sink.recordAll (successOf path e)) (answer path e true) where
  failed hs := by
    rw [answer_status h] at hs
    exact absurd hs (not_or.mpr ⟨h.status_ne_readError, hq⟩)
  unparsed hs := by
    rw [answer_status h] at hs
    simp [isStale_successOf h, hs, answer_cached]
  extracted hs := by
    rw [answer_status h] at hs
    simp [isStale_successOf h, hs]
  others _ ho := isStale_successOf_of_ne ho

theorem marks_of_miss (h : (x.outcome path text).1 = .ok e) :
    Marks path sink (sink.recordAll ((x.outcome path text).2 ++ successOf path e)) (answer path e false) := by
  have hw := wellFormed_of_outcome h
  have failed (hs : e.status = .parseError ∨ e.status = .queryError) :
      (sink.recordAll ((x.outcome path text).2 ++ successOf path e)).isStale path := by
    rw [Collector.recordAll_append, isStale_successOf hw, (endsInFailure_of_outcome h hs).isStale sink]
    cases hs
    case inl hs => simp [hs]
    case inr hs => simp [hs]
  refine ⟨fun hs => ?failed, fun hs => ?unparsed, fun hs => ?extracted, fun other ho => ?others⟩
  case failed =>
    rw [answer_status hw] at hs
    exact failed (.inr (hs.resolve_left hw.status_ne_readError))
  case unparsed =>
    rw [answer_status hw] at hs
    simp [failed (.inl hs), answer_cached]
  case extracted =>
    rw [answer_status hw] at hs
    simp [Collector.recordAll_append, isStale_successOf hw, hs]
  case others =>
    rw [Collector.recordAll_append, isStale_successOf_of_ne ho,
      isStale_recordAll_of_isAbout (isAbout_outcome x path text) ho]

-- What one call does: the cache need only hold what extractors keep.
theorem marks_extract (h : cache.Settled) (hr : (x.extract files cache path).result = .ok r) :
    Marks path sink (sink.recordAll (x.extract files cache path).events) r := by
  cases hs : x.sight files path
  case settled r' es =>
    rw [extract_of_settled hs] at hr ⊢
    cases hr
    exact marks_of_settled hs
  case contents text =>
    cases hf : cache.find? (contentKey path text)
    case some e =>
      rw [extract_of_hit hs hf] at hr ⊢
      cases hr
      have ⟨hw, hq⟩ := h _ e hf
      exact marks_of_hit hw hq
    case none =>
      rw [result_of_miss hs hf] at hr
      have ⟨e, ho, he⟩ := Outcome.ok_of_map hr
      rw [events_of_miss hs hf, ho, ← he]
      exact marks_of_miss ho

end Extractor

namespace Account

theorem after_append_singleton : after s (vs ++ [v]) = (after s vs).visit s v := by
  simp [after]

theorem settled_empty : Cache.Settled {} := by
  intro key e he
  simp [Cache.find?] at he

theorem settled_after (s : Settings) (vs : List Visit) : (after s vs).cache.Settled :=
  List.foldlRecOn vs (visit s) (motive := fun a => a.cache.Settled) settled_empty
    fun _ ha _ _ => Extractor.settled_extract ha

theorem marks_of_visit (s : Settings) (vs : List Visit) (v : Visit)
    (hr : (v.run s (after s vs).cache).result = .ok r) :
    Marks v.path (after s vs).sink (after s (vs ++ [v])).sink r := by
  rw [after_append_singleton]
  exact Extractor.marks_extract (settled_after s vs) hr

-- A file of which nothing can be made, looked at twice.
theorem marks_of_visit_of_failing :
    let files : FileTree := { entries := [(["a.js"], .file Action.tag)] }
    let v : Visit := ⟨Extractor.failing.preprocessors, files, "a.js"⟩
    ∃ r r', (v.run {} (after {} []).cache).result = .ok r ∧ (v.run {} (after {} [v]).cache).result = .ok r' ∧
      (r.status = .parseError ∧ ¬r.cached ∧ (after {} [v]).sink.isStale "a.js") ∧
      r'.status = .parseError ∧ r'.cached ∧ (after {} [v, v]).sink.isStale "a.js" := by
  intro files v
  have hr : Call.Reads ⟨"a.js", files, {}⟩ "graphql" := reads_tag
  have hs : Extractor.failing.sight files "a.js" = .contents "graphql" :=
    Extractor.sight_eq_contents_iff.mpr ⟨hr, by decide⟩
  have ho : (Extractor.failing.outcome "a.js" "graphql").1 = .ok ⟨[], .parseError⟩ := rfl
  have h₁ : (v.run {} (after {} []).cache).result = .ok ⟨"a.js", .parseError, none, false⟩ :=
    Extractor.result_of_miss hs rfl
  have found : (after {} [v]).cache.find? (contentKey "a.js" "graphql") = some ⟨[], .parseError⟩ :=
    (Extractor.find?_of_miss hs rfl).mpr (.inr ⟨rfl, ho, by decide⟩)
  have h₂ : (v.run {} (after {} [v]).cache).result = .ok ⟨"a.js", .parseError, none, true⟩ :=
    congrArg Run.result (Extractor.extract_of_hit hs found)
  have m₁ := (marks_of_visit {} [] v h₁).unparsed rfl
  have m₂ := (marks_of_visit {} [v] v h₂).unparsed rfl
  simp only [List.nil_append, Bool.not_false, Bool.or_true] at m₁
  refine ⟨_, _, h₁, h₂, ⟨rfl, by simp, m₁⟩, rfl, rfl, ?_⟩
  exact m₂.trans (by simp [m₁, v])

variable {bad good : FileTree} {text' : String} {e' : CacheEntry}

-- What a file was found to be is not told again: one that goes back from queries to a text that cannot be
-- parsed is not stale, although its extraction fails.
theorem not_isStale_of_reverted
    (hs : x.sight bad path = .contents text) (hs' : x.sight good path = .contents text')
    (ho : (x.outcome path text).1 = .ok e) (hp : e.status = .parseError)
    (ho' : (x.outcome path text').1 = .ok e') (hx : e'.status = .extracted)
    (hk : contentKey path text ≠ contentKey path text') :
    let before : List Visit := [⟨x.preprocessors, bad, path⟩, ⟨x.preprocessors, good, path⟩]
    let last : Visit := ⟨x.preprocessors, bad, path⟩
    ∃ r, (last.run x.settings (after x.settings before).cache).result = .ok r ∧
      r.status = .parseError ∧ ¬(after x.settings (before ++ [last])).sink.isStale path := by
  intro before last
  have hw  := Extractor.wellFormed_of_outcome ho
  have hw' := Extractor.wellFormed_of_outcome ho'
  let first  := x.extract bad {} path
  let second := x.extract good first.cache path
  have kept (key) (e₀) :
      first.cache.find? key = some e₀ ↔ key = contentKey path text ∧ x.Settles path text e₀ :=
    (Extractor.find?_of_miss hs rfl).trans (or_iff_right (by simp [Cache.find?]))
  have missed : first.cache.find? (contentKey path text') = none :=
    Option.eq_none_iff_forall_ne_some.mpr fun e₀ he => hk ((kept _ e₀).mp he).left.symm
  -- The second call finds queries, and makes the file one that is not stale.
  have hr : second.result = .ok (Extractor.answer path e' false) := by
    rw [Extractor.result_of_miss hs' missed, ho']
    rfl
  have fresh : ¬(after x.settings before).sink.isStale path :=
    (Extractor.marks_extract (settled_after x.settings [last]) hr).extracted
      ((Extractor.answer_status hw').trans hx)
  -- The third call is answered with what the first one kept.
  have found : second.cache.find? (contentKey path text) = some e :=
    (Extractor.find?_of_miss hs' missed).mpr (.inl ((kept _ e).mpr ⟨rfl, ho, by simp [hp]⟩))
  have hl : (x.extract bad second.cache path).result = .ok (Extractor.answer path e true) :=
    congrArg Run.result (Extractor.extract_of_hit hs found)
  have hp' : (Extractor.answer path e true).status = .parseError := (Extractor.answer_status hw).trans hp
  have mark : (after x.settings (before ++ [last])).sink.isStale path =
      ((after x.settings before).sink.isStale path || !(Extractor.answer path e true).cached) :=
    (Extractor.marks_extract (settled_after x.settings before) hl).unparsed hp'
  refine ⟨_, hl, hp', ?_⟩
  rw [mark, Extractor.answer_cached]
  simpa using fresh

-- A file whose text goes from one of which nothing can be made to a query, and back.
theorem not_isStale_of_pageQuery :
    let bad : FileTree := { entries := [(["a.js"], .file Action.tag)] }
    let good : FileTree := { entries := [(["a.js"], .file pageQuery.toUTF8.data.toList)] }
    let look (files : FileTree) : Visit := ⟨(Extractor.failingOn "graphql").preprocessors, files, "a.js"⟩
    (after {} [look bad]).sink.isStale "a.js" ∧
    (parseIn .javascript (.ofString pageQuery) = some .pageQuery →
      ∃ r, ((look bad).run {} (after {} [look bad, look good]).cache).result = .ok r ∧
        r.status = .parseError ∧ ¬(after {} [look bad, look good, look bad]).sink.isStale "a.js") := by
  intro bad good look
  let x := Extractor.failingOn "graphql"
  have hr : Call.Reads ⟨"a.js", bad, {}⟩ "graphql" := reads_tag
  have hs : x.sight bad "a.js" = .contents "graphql" := Extractor.sight_eq_contents_iff.mpr ⟨hr, by decide⟩
  have ho : (x.outcome "a.js" "graphql").1 = .ok ⟨[], .parseError⟩ := rfl
  constructor
  case left =>
    have first : (x.extract bad {} "a.js").result = .ok ⟨"a.js", .parseError, none, false⟩ :=
      Extractor.result_of_miss hs rfl
    exact ((Extractor.marks_extract settled_empty first).unparsed rfl).trans (Bool.or_true _)
  case right =>
    intro ht
    have hr' : Call.Reads ⟨"a.js", good, {}⟩ pageQuery := reads_pageQuery (by decide +kernel)
    have hs' : x.sight good "a.js" = .contents pageQuery :=
      Extractor.sight_eq_contents_iff.mpr ⟨hr', by decide +kernel⟩
    obtain ⟨f, ho', _⟩ := Extractor.outcome_pageQuery (x := x) ht rfl rfl
    exact not_isStale_of_reverted hs hs' ho rfl ho' rfl (by decide +kernel)

end Account

end QueryGlean
