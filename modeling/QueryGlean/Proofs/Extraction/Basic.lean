import QueryGlean.Extraction.Basic
import QueryGlean.Proofs.Outcome

namespace QueryGlean

-- The fragments of an entry and its status tell the same.
structure CacheEntry.WellFormed (e : CacheEntry) : Prop where
  extracted : e.fragments ≠ [] → e.status = .extracted
  otherwise : e.fragments = [] → e.status ∈ [.noFragments, .parseError, .queryError]

theorem CacheEntry.WellFormed.status_mem {e : CacheEntry} (h : e.WellFormed) :
    e.status ∈ [.extracted, .noFragments, .parseError, .queryError] := by
  by_cases hf : e.fragments = []
  case pos => exact List.mem_cons_of_mem _ (h.otherwise hf)
  case neg => exact h.extracted hf ▸ List.mem_cons_self

-- What is kept: a query error is no reason not to look again.
def ExtractionStatus.kept : List ExtractionStatus :=
  [.extracted, .noFragments, .parseError]

theorem Reading.source_of_parseIn {ps : List Preprocessor} {path text : String} {l : Language} {ls : List Language}
    {root : Tree} (hc : Preprocessor.candidates path text ps = .ok [])
    (hl : Language.candidates (.ofString path) = l :: ls) (ht : parseIn l (.ofString text) = some root) :
    source ps path text = (.ok (some ⟨l, .ofString text, root⟩), []) := by
  simp [source, hc, hl, Parsed.attempt, ht]

namespace Extractor

variable {x : Extractor} {files : FileTree} {cache : Cache} {path text key : String} {e : CacheEntry}
variable {b : Bool} {es : List Event} {r : ExtractionResult}

inductive SettlesAtSight (x : Extractor) (files : FileTree) (path : String) :
    Except Breakdown ExtractionResult → List Event → Prop
  | nulPath (read : files.readText (.ofString path) = .error .nulByte) :
      SettlesAtSight x files path (.error .nulPath) []
  | unreadable {e : FileTree.ReadError} (read : files.readText (.ofString path) = .error e) (other : e ≠ .nulByte) :
      SettlesAtSight x files path (.ok { filePath := path, status := .readError })
        [.reported (.readFailed path e.message), .failed path .read (some e.message)]
  | untagged {text : String} (read : files.readText (.ofString path) = .ok text)
      (absent : ¬occursIn x.settings.tagName.toList text.toList) :
      SettlesAtSight x files path (.ok { filePath := path, status := .notQueryFile }) []

inductive ComesTo (x : Extractor) (path text : String) : Except Breakdown CacheEntry × List Event → Prop
  | broken {b : Breakdown} {es : List Event} (source : Reading.source x.preprocessors path text = (.error b, es)) :
      ComesTo x path text (.error b, es)
  | unparsed {es : List Event} (source : Reading.source x.preprocessors path text = (.ok none, es)) :
      ComesTo x path text (.ok ⟨[], .parseError⟩, es)
  | bare {p : Parsed} {es : List Event} (source : Reading.source x.preprocessors path text = (.ok (some p), es))
      (fragments : (p.fragments x.settings path).1 = .ok []) :
      ComesTo x path text (.ok ⟨[], .noFragments⟩, es ++ (p.fragments x.settings path).2.map .reported)
  | extracted {p : Parsed} {es : List Event} {fs : List Fragment}
      (source : Reading.source x.preprocessors path text = (.ok (some p), es))
      (fragments : (p.fragments x.settings path).1 = .ok fs) (found : fs ≠ []) :
      ComesTo x path text (.ok ⟨fs, .extracted⟩, es ++ (p.fragments x.settings path).2.map .reported)
  | refused {p : Parsed} {es : List Event} {e : QueryError}
      (source : Reading.source x.preprocessors path text = (.ok (some p), es))
      (fragments : (p.fragments x.settings path).1 = .error (.query e)) :
      ComesTo x path text (.ok ⟨[], .queryError⟩, es ++ (p.fragments x.settings path).2.map .reported ++
        [.reported (.queryInvalid path e.message), .failed path .query (some e.message)])
  | unfit {p : Parsed} {es : List Event} {u : UnfitDefinition}
      (source : Reading.source x.preprocessors path text = (.ok (some p), es))
      (fragments : (p.fragments x.settings path).1 = .error (.unfit u)) :
      ComesTo x path text (.error (.unfit u), es ++ (p.fragments x.settings path).2.map .reported)

theorem settlesAtSight {r : Except Breakdown ExtractionResult} (h : x.sight files path = .settled r es) :
    x.SettlesAtSight files path r es := by
  unfold sight at h
  split at h
  case h_1 hr    => cases h; exact .nulPath hr
  case h_2 hn hr => cases h; exact .unreadable hr hn
  case h_3 hr    =>
    split at h
    case isTrue     => cases h
    case isFalse ht => cases h; exact .untagged hr ht

theorem comesTo_outcome (x : Extractor) (path text : String) : x.ComesTo path text (x.outcome path text) := by
  unfold outcome
  split
  case h_1 hs => exact .broken hs
  case h_2 hs => exact .unparsed hs
  case h_3 hs =>
    dsimp only
    split
    case h_1 hf   => exact .bare hs hf
    case h_2 hn hf => exact .extracted hs hf hn
    case h_3 hf   => exact .refused hs hf
    case h_4 hf   => exact .unfit hs hf

theorem outcome_of_fragments {p : Parsed} {fs : List Fragment}
    (hs : Reading.source x.preprocessors path text = (.ok (some p), es))
    (hf : (p.fragments x.settings path).1 = .ok fs) :
    (x.outcome path text).1 = .ok ⟨fs, if fs.isEmpty then .noFragments else .extracted⟩ := by
  unfold outcome
  rw [hs]
  dsimp only
  rw [hf]
  cases fs <;> rfl

theorem outcome_of_unfit {p : Parsed} {u : UnfitDefinition}
    (hs : Reading.source x.preprocessors path text = (.ok (some p), es))
    (hf : (p.fragments x.settings path).1 = .error (.unfit u)) :
    (x.outcome path text).1 = .error (.unfit u) := by
  unfold outcome
  rw [hs]
  dsimp only
  rw [hf]

theorem wellFormed_of_outcome (h : (x.outcome path text).1 = .ok e) : e.WellFormed := by
  have hc := x.comesTo_outcome path text
  generalize x.outcome path text = o at h hc
  cases hc <;> cases h
  case unparsed     => exact ⟨by simp, by simp⟩
  case bare         => exact ⟨by simp, by simp⟩
  case extracted hf => exact ⟨by simp, fun he => (hf he).elim⟩
  case refused      => exact ⟨by simp, by simp⟩

theorem answer_status (h : e.WellFormed) : (answer path e b).status = e.status := by
  unfold answer
  split
  case h_1 d hd =>
    have hf : e.fragments ≠ [] := Document.ofList?_eq_some_iff.mp hd ▸ d.definitions_ne_nil
    exact (h.extracted hf).symm
  case h_2 => rfl

theorem answer_document : (answer path e b).document = Document.ofList? e.fragments := by
  unfold answer
  split <;> simp_all

theorem answer_cached : (answer path e b).cached = b := by
  unfold answer
  split <;> rfl

theorem recordAll_successOf (sink : Collector) (path : String) (e : CacheEntry) :
    (sink.recordAll (successOf path e)).diagnostics = sink.diagnostics ∧
      (sink.recordAll (successOf path e)).failed = sink.failed := by
  unfold successOf
  split <;> simp [Collector.recordAll, Collector.record]

structure Settles (x : Extractor) (path text : String) (e : CacheEntry) : Prop where
  outcome : (x.outcome path text).1 = .ok e
  status  : e.status ≠ .queryError

theorem Settles.status_mem_kept (h : x.Settles path text e) : e.status ∈ ExtractionStatus.kept := by
  have hw := wellFormed_of_outcome h.outcome
  by_cases hf : e.fragments = []
  case pos => have hs := hw.otherwise hf; have hn := h.status; simp_all [ExtractionStatus.kept]
  case neg => simp [hw.extracted hf, ExtractionStatus.kept]

theorem sight_eq_contents_iff :
    x.sight files path = .contents text ↔
      files.readText (Path.ofString path) = .ok text ∧ occursIn x.settings.tagName.toList text.toList := by
  unfold sight
  split
  case h_1 => simp_all
  case h_2 => simp_all
  case h_3 t hr =>
    split
    case isTrue ht  => simpa [hr] using fun he => he ▸ ht
    case isFalse ht => simpa [hr] using fun he => he ▸ (Bool.not_eq_true _ ▸ ht)

theorem status_of_sight_eq_settled (h : x.sight files path = .settled (.ok r) es) :
    r.status ∉ ExtractionStatus.kept ∧ r.cached = false := by
  cases settlesAtSight h
  case unreadable => simp [ExtractionStatus.kept]
  case untagged   => simp [ExtractionStatus.kept]

theorem extract_of_settled {r : Except Breakdown ExtractionResult}
    (h : x.sight files path = .settled r es) : x.extract files cache path = ⟨r, cache, es⟩ := by
  simp only [extract, h]

theorem extract_of_hit (h : x.sight files path = .contents text)
    (he : cache.find? (contentKey path text) = some e) :
    x.extract files cache path =
      ⟨.ok (answer path e true), (cache.get (contentKey path text)).2, successOf path e⟩ := by
  simp [extract, h, Cache.get, he]

theorem result_of_miss (h : x.sight files path = .contents text)
    (he : cache.find? (contentKey path text) = none) :
    (x.extract files cache path).result = (x.outcome path text).1.map (answer path · false) := by
  simp only [extract, h, Cache.get, he]
  split <;> simp_all [Except.map]

theorem events_of_miss (h : x.sight files path = .contents text)
    (he : cache.find? (contentKey path text) = none) :
    (x.extract files cache path).events =
      (x.outcome path text).2 ++ successOfOutcome path (x.outcome path text).1 := by
  simp only [extract, h, Cache.get, he]
  split <;> simp_all [successOfOutcome]

def kept? : Except Breakdown CacheEntry → Option CacheEntry
  | .ok e    => if e.status = .queryError then none else some e
  | .error _ => none

theorem kept?_eq_some_iff {o : Except Breakdown CacheEntry} :
    kept? o = some e ↔ o = .ok e ∧ e.status ≠ .queryError := by
  cases o
  case error => simp [kept?]
  case ok e' =>
    simp only [kept?, Option.ite_none_left_eq_some, Option.some.injEq, Except.ok.injEq]
    grind

theorem find?_keepOutcome {o : Except Breakdown CacheEntry} (k : String) :
    (keepOutcome cache key o).find? k = if k = key then (kept? o).or (cache.find? k) else cache.find? k := by
  cases o
  case error => simp [keepOutcome, kept?]
  case ok e =>
    by_cases hq : e.status = .queryError
    case pos => simp [keepOutcome, keep, kept?, hq]
    case neg => simp [keepOutcome, keep, kept?, hq, Cache.find?_put]

theorem find?_or_kept {o : Except Breakdown CacheEntry} {k : String}
    (h : (keepOutcome cache key o).find? k = some e) :
    cache.find? k = some e ∨ k = key ∧ o = .ok e ∧ e.status ≠ .queryError := by
  rw [find?_keepOutcome] at h
  split at h
  case isFalse => exact .inl h
  case isTrue hk =>
    cases Option.or_eq_some_iff.mp h
    case inl h => exact .inr ⟨hk, kept?_eq_some_iff.mp h⟩
    case inr h => exact .inl h.right

theorem cache_of_miss (h : x.sight files path = .contents text)
    (he : cache.find? (contentKey path text) = none) :
    (x.extract files cache path).cache =
      keepOutcome (cache.get (contentKey path text)).2 (contentKey path text) (x.outcome path text).1 := by
  simp only [extract, h, Cache.get, he]
  split <;> simp_all [keepOutcome]

theorem find?_of_miss (h : x.sight files path = .contents text)
    (he : cache.find? (contentKey path text) = none) :
    (x.extract files cache path).cache.find? key = some e ↔
      cache.find? key = some e ∨ key = contentKey path text ∧ x.Settles path text e := by
  have hs : x.Settles path text e ↔ kept? (x.outcome path text).1 = some e := by
    rw [kept?_eq_some_iff]
    exact ⟨fun h => ⟨h.outcome, h.status⟩, fun h => ⟨h.left, h.right⟩⟩
  -- The lookup itself only counts the miss.
  rw [cache_of_miss h he, find?_keepOutcome, Cache.find?_get, hs]
  split
  case isTrue hk  => simp [hk, he]
  case isFalse hk => simp [hk]

end Extractor

end QueryGlean
