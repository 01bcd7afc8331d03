import QueryGlean.Proofs.Extraction.Completion
import QueryGlean.Proofs.Extraction.History

namespace QueryGlean

namespace Extractor

def ownDocument (x : Extractor) (files : FileTree) (path : String) : Option Document :=
  (x.extract files {} path).result.toOption.bind ExtractionResult.document

def ownDocuments (x : Extractor) (files : FileTree) (paths : List String) : Keyed Document :=
  paths.eraseDups.filterMap fun p => (x.ownDocument files p).map (p, ·)

def requests (x : Extractor) (files : FileTree) (paths : List String) : List (String × String) :=
  Call.requests x (paths.map fun p => ⟨p, files, {}⟩)

end Extractor

-- A result without the note that it is from the cache.
def ExtractionResult.fresh (r : ExtractionResult) : ExtractionResult :=
  { r with cached := false }

def Caller.Own (x : Extractor) (files : FileTree) (jobs : List Job) (c : Caller) : Prop :=
  match c.stage with
  | .starting        => True
  | .waiting j       => ∃ text, x.sight files c.path = .contents text ∧
    (jobs.map Job.contents)[j]? = some (c.path, text)
  | .extracting text => x.sight files c.path = .contents text
  | .finished r      => r.map ExtractionResult.fresh = (x.extract files {} c.path).result

def Cache.Within (x : Extractor) (ps : List (String × String)) (c : Cache) : Prop :=
  ∀ key e, c.find? key = some e → ∃ p ∈ ps, contentKey p.1 p.2 = key ∧ x.Settles p.1 p.2 e

variable {x : Extractor} {files : FileTree} {b b' : Batch} {paths : List String} {path text : String}
variable {c : Caller} {e : CacheEntry} {i : Nat}
variable {r r' : Except Breakdown ExtractionResult}

theorem Caller.Own.step (h : c.Own x files b.jobs) (hs : Batch.Step x files b b') : c.Own x files b'.jobs := by
  unfold Caller.Own at h ⊢
  split
  case h_1 => trivial
  case h_2 hc =>
    rw [hc] at h
    have ⟨text, ht, hj⟩ := h
    exact ⟨text, ht, hs.getElem?_contents hj⟩
  case h_3 hc => rwa [hc] at h
  case h_4 hc => rwa [hc] at h

theorem ExtractionResult.document_of_fresh (h : r.map fresh = r') :
    r.toOption.bind document = r'.toOption.bind document := by
  subst h
  cases r <;> rfl

namespace Extractor

theorem fresh_answer (path : String) (e : CacheEntry) (cached : Bool) :
    (answer path e cached).fresh = answer path e false := by
  unfold answer
  split <;> rfl

theorem fresh_of_outcome (hs : x.sight files path = .contents text) :
    ((x.outcome path text).1.map (answer path · false)).map ExtractionResult.fresh =
      (x.extract files {} path).result := by
  rw [result_of_miss hs rfl]
  cases (x.outcome path text).1
  case error => rfl
  case ok e  => simp [Except.map, fresh_answer]

theorem fresh_of_hit (hs : x.sight files path = .contents text) (he : x.Settles path text e) :
    (Except.ok (answer path e true)).map ExtractionResult.fresh = (x.extract files {} path).result := by
  rw [result_of_miss hs rfl, he.outcome]
  simp [Except.map, fresh_answer]

theorem fresh_of_settled {es : List Event} (hs : x.sight files path = .settled r es) :
    r.map ExtractionResult.fresh = (x.extract files {} path).result := by
  rw [extract_of_settled hs]
  cases r
  case error => rfl
  case ok r =>
    have hc := (status_of_sight_eq_settled hs).right
    simp [Except.map, ExtractionResult.fresh, ← hc]

theorem fresh_alone :
    (x.extract files {} path).result.map ExtractionResult.fresh = (x.extract files {} path).result := by
  cases hs : x.sight files path
  case settled  => simpa [extract_of_settled hs] using fresh_of_settled hs
  case contents =>
    have hm : (x.extract files {} path).result = _ := result_of_miss hs rfl
    have hf := fresh_of_outcome hs
    rwa [← hm] at hf

theorem mem_requests (hm : path ∈ paths) (hs : x.sight files path = .contents text) :
    (path, text) ∈ x.requests files paths :=
  Call.mem_requests.mpr ⟨⟨path, files, {}⟩, List.mem_map_of_mem hm, Call.request?_eq_some_iff.mpr ⟨hs, rfl⟩⟩

end Extractor

namespace Batch

-- How the callers of a batch are kept apart:
-- 1. all entries of the cache, and all jobs, are for contents of the batch
-- 2. a key in flight is that of its job
-- 3. all that callers know is about their own files
structure Isolated (x : Extractor) (files : FileTree) (paths : List String) (b : Batch) : Prop where
  cache   : b.cache.Within x (x.requests files paths)
  jobs    : ∀ job ∈ b.jobs, job.contents ∈ x.requests files paths
  flying  : ∀ q ∈ b.inFlight, ∃ p, (b.jobs.map Job.contents)[q.2]? = some p ∧ contentKey p.1 p.2 = q.1
  named   : ∀ c ∈ b.callers, c.path ∈ paths
  callers : ∀ c ∈ b.callers, c.Own x files b.jobs

theorem Isolated.mem_requests (h : b.Isolated x files paths) (hc : b.callers[i]? = some c)
    (hs : x.sight files c.path = .contents text) : (c.path, text) ∈ x.requests files paths :=
  Extractor.mem_requests (h.named c (List.mem_of_getElem? hc)) hs

theorem Isolated.cache_step (h : b.Isolated x files paths) (hf : b.Faithful x) (hs : Step x files b b') :
    b'.cache.Within x (x.requests files paths) := by
  intro key e he
  rcases hs.found hf he with he | ⟨path, text, hk, hs, _, hc | hj⟩
  case inl     => exact h.cache key e he
  case inr.inl => exact ⟨(path, text), Extractor.mem_requests (h.named _ hc) (h.callers _ hc), hk, hs⟩
  case inr.inr =>
    obtain ⟨job, hm, hp⟩ := List.mem_map.mp hj
    exact ⟨(path, text), hp ▸ h.jobs job hm, hk, hs⟩

theorem Isolated.jobs_step (h : b.Isolated x files paths) (hs : Step x files b b') :
    ∀ job ∈ b'.jobs, job.contents ∈ x.requests files paths := by
  cases hs
  case begin hc hs _ _ _ =>
    exact List.forall_mem_append.mpr ⟨h.jobs, List.forall_mem_singleton.mpr (h.mem_requests hc hs)⟩
  case run hj _ =>
    have hm := h.jobs _ (List.mem_of_getElem? hj)
    exact forall_mem_set h.jobs hm
  case land hj _ _ =>
    have hm := h.jobs _ (List.mem_of_getElem? hj)
    exact forall_mem_set h.jobs hm
  all_goals exact h.jobs

-- A key in flight stays that of its job.
theorem Step.flying (h : ∀ q ∈ b.inFlight, ∃ p, (b.jobs.map Job.contents)[q.2]? = some p ∧ contentKey p.1 p.2 = q.1)
    (hs : Step x files b b') :
    ∀ q ∈ b'.inFlight, ∃ p, (b'.jobs.map Job.contents)[q.2]? = some p ∧ contentKey p.1 p.2 = q.1 := by
  have kept : ∀ q ∈ b.inFlight, ∃ p,
      (b'.jobs.map Job.contents)[q.2]? = some p ∧ contentKey p.1 p.2 = q.1 :=
    fun q hq => (h q hq).imp fun p hp => ⟨hs.getElem?_contents hp.left, hp.right⟩
  cases hs
  case begin path text _ _ _ _ _ =>
    exact List.forall_mem_cons.mpr ⟨⟨(path, text), by simp [Job.contents], rfl⟩, kept⟩
  case land => exact fun q hq => kept q (List.mem_filter.mp hq).1
  all_goals exact kept

-- The caller that goes on finds only what is about its own file, for its key tells its contents.
theorem Isolated.callers_step (h : b.Isolated x files paths) (hk : KeysApart (x.requests files paths))
    (hf : b.Faithful x) (hs : Step x files b b') : ∀ c ∈ b'.callers, c.Own x files b'.jobs := by
  have kept : ∀ c ∈ b.callers, c.Own x files b'.jobs := fun c hc => (h.callers c hc).step hs
  cases hs
  case settle hs   => exact forall_mem_set kept (Extractor.fresh_of_settled hs)
  case work hs _ _ => exact forall_mem_set kept hs
  case run         => exact kept
  case land        => exact kept
  case hit path text e hc hs he =>
    -- The entry is for contents of the batch with the same key, so it is for the same contents.
    obtain ⟨p, hp, hpk, hps⟩ := h.cache _ e he
    cases hk p hp (path, text) (h.mem_requests hc hs) hpk
    exact forall_mem_set kept (Extractor.fresh_of_hit hs hps)
  case join path text j hc hs _ _ hl =>
    obtain ⟨p, hj, hpk⟩ := h.flying (contentKey path text, j) (Keyed.mem_of_lookup_eq_some hl)
    obtain ⟨job, hm, hp⟩ := List.mem_map.mp (List.mem_of_getElem? hj)
    cases hk p (hp ▸ h.jobs job hm) (path, text) (h.mem_requests hc hs) hpk
    exact forall_mem_set kept ⟨text, hs, hj⟩
  case begin path text hc hs _ _ _ =>
    exact forall_mem_set kept ⟨text, hs, by simp [Job.contents]⟩
  case receive hc hj ho =>
    obtain ⟨text, hs, hw⟩ := h.callers _ (List.mem_of_getElem? hc)
    rw [List.getElem?_map, hj] at hw
    rw [hf.outcome hj ho, Job.result_of_contents (Option.some.inj hw)]
    exact forall_mem_set kept (Extractor.fresh_of_outcome hs)
  case extract hc =>
    exact forall_mem_set kept (Extractor.fresh_of_outcome (h.callers _ (List.mem_of_getElem? hc)))

theorem Isolated.step (h : b.Isolated x files paths) (hk : KeysApart (x.requests files paths))
    (hf : b.Faithful x) (hs : Step x files b b') : b'.Isolated x files paths where
  cache   := h.cache_step hf hs
  jobs    := h.jobs_step hs
  flying  := hs.flying h.flying
  callers := h.callers_step hk hf hs
  named := by
    intro c hc
    have hm : c.path ∈ b.callers.map Caller.path := hs.paths ▸ List.mem_map_of_mem hc
    have ⟨c', hc', he⟩ := List.mem_map.mp hm
    exact he ▸ h.named c' hc'

theorem documents_results {f : String → Option Document}
    (h : ∀ c ∈ b.callers, ∃ r, c.stage = .finished r ∧ r.toOption.bind ExtractionResult.document = f c.path) :
    documents b.results =
      (b.callers.map Caller.path).foldl (fun docs p => (f p).elim docs (Keyed.insert p · docs)) [] := by
  unfold documents results
  generalize ([] : Keyed Document) = docs
  generalize b.callers = cs at h ⊢
  induction cs generalizing docs
  case nil => rfl
  case cons c cs hi =>
    have ⟨⟨r, hs, hd⟩, h⟩ := List.forall_mem_cons.mp h
    rw [List.filterMap_cons_some (by rw [hs]), List.foldl_cons, List.map_cons, List.foldl_cons, hi _ h, ← hd]
    congr 1
    cases r
    case error => rfl
    case ok r  =>
      obtain ⟨_, _, document, _⟩ := r
      cases document <;> rfl

theorem Isolated.documents_eq (h : b.Isolated x files paths) (hp : b.callers.map Caller.path = paths)
    (hc : b.Complete) : documents b.results = x.ownDocuments files paths := by
  have own : ∀ c ∈ b.callers, ∃ r, c.stage = .finished r ∧
      r.toOption.bind ExtractionResult.document = x.ownDocument files c.path := by
    intro c hm
    have ⟨r, hr⟩ := hc c hm
    have ho := h.callers c hm
    rw [Caller.Own, hr] at ho
    exact ⟨r, hr, ExtractionResult.document_of_fresh ho⟩
  rw [documents_results own, hp, Keyed.foldl_insert]
  rfl

theorem isolated_run (hk : KeysApart (x.requests files paths)) (moves : List Move) :
    let b := (ofPaths {} paths).run x files moves
    b.Isolated x files paths ∧ b.callers.map Caller.path = paths ∧ b.Attached := by
  have start : (ofPaths {} paths).Isolated x files paths := by
    refine ⟨?_, ?_, ?_, ?_, ?_⟩ <;> simp [ofPaths, Cache.Within, Cache.find?, Caller.Own]
  have named : (ofPaths {} paths).callers.map Caller.path = paths := by
    simp [ofPaths, Function.comp_def]
  obtain ⟨h, _, hp, ha⟩ := run_induction x files
    (P := fun b => b.Isolated x files paths ∧ b.Faithful x ∧ b.callers.map Caller.path = paths ∧ b.Attached)
    ⟨start, by simp [ofPaths, Faithful], named, (fits_ofPaths {} paths).attached⟩
    (by
      rintro _ _ ⟨h, hf, hp, ha⟩ hs
      exact ⟨h.step hk hf hs, hs.faithful hf, hs.paths.trans hp, ha.step hs⟩) moves
  exact ⟨h, hp, ha⟩

end Batch

theorem Extractor.documents_isolated (hk : KeysApart (x.requests files paths)) :
    (x.documents files {} paths).1 = x.ownDocuments files paths ∧
      ∀ moves, let b := (Batch.ofPaths {} paths).run x files moves
        b.Alive x files ∧ (b.Complete → Batch.documents b.results = x.ownDocuments files paths) := by
  have ended (moves : List Move) (hc : ((Batch.ofPaths {} paths).run x files moves).Complete) :
      Batch.documents ((Batch.ofPaths {} paths).run x files moves).results = x.ownDocuments files paths :=
    have ⟨h, hp, _⟩ := Batch.isolated_run hk moves
    h.documents_eq hp hc
  refine ⟨ended _ (Batch.complete_of_schedule x files {} paths), fun moves => ⟨?_, ended moves⟩⟩
  exact (Batch.isolated_run hk moves).right.right.alive

-- A file with a query between two mentions of one of which nothing can be made.
theorem Extractor.documents_isolated_of_failing :
    let x := failingOn "graphql"
    let files : FileTree := {
      entries := [(["a.js"], .file pageQuery.toUTF8.data.toList), (["b.js"], .file Action.tag)] }
    let paths := ["b.js", "a.js", "b.js"]
    let expected := ((x.ownDocument files "a.js").map (Prod.mk "a.js")).toList
    x.requests files paths = [("b.js", "graphql"), ("a.js", pageQuery), ("b.js", "graphql")] ∧
      KeysApart (x.requests files paths) ∧
      (x.extract files {} "b.js").result = .ok ⟨"b.js", .parseError, none, false⟩ ∧
      (x.documents files {} paths).1 = expected ∧
      (∀ moves, let b := (Batch.ofPaths {} paths).run x files moves
        b.Complete → Batch.documents b.results = expected) ∧
      (parseIn .javascript (.ofString pageQuery) = some .pageQuery →
        ∃ d, expected = [("a.js", d)] ∧ d.definitions.map (·.name) = ["aJs1175206547"]) := by
  intro x files paths expected
  have ra : Call.Reads ⟨"a.js", files, {}⟩ pageQuery := reads_pageQuery (by decide +kernel)
  have rb : Call.Reads ⟨"b.js", files, {}⟩ "graphql" := by
    refine reads_of_resolve ["b.js"] Action.tag ?_ ?_ ?_ ?_ <;> decide +kernel
  have sa : x.sight files "a.js" = .contents pageQuery := sight_eq_contents_iff.mpr ⟨ra, by decide +kernel⟩
  have sb : x.sight files "b.js" = .contents "graphql" := sight_eq_contents_iff.mpr ⟨rb, by decide⟩
  have hq : x.requests files paths = [("b.js", "graphql"), ("a.js", pageQuery), ("b.js", "graphql")] := by
    have qa := Call.request?_of_reads (x := x) ra (by decide +kernel)
    have qb := Call.request?_of_reads (x := x) rb (by decide)
    simp [paths, requests, Call.requests, qa, qb]
  have hk : KeysApart (x.requests files paths) := by
    rw [hq]
    decide +kernel
  have hb : (x.extract files {} "b.js").result = .ok ⟨"b.js", .parseError, none, false⟩ := result_of_miss sb rfl
  have hd : x.ownDocuments files paths = expected := by
    -- The file that fails has no document, so the one of the other file is all there is.
    have nb : x.ownDocument files "b.js" = none := by
      rw [ownDocument, hb]
      rfl
    have he : paths.eraseDups = ["b.js", "a.js"] := by decide
    rw [ownDocuments, he]
    cases hx : x.ownDocument files "a.js" <;> simp [expected, nb, hx]
  have h := documents_isolated hk
  refine ⟨hq, hk, hb, h.left.trans hd, fun moves hc => ((h.right moves).right hc).trans hd, fun ht => ?_⟩
  obtain ⟨f, ho, hn⟩ := outcome_pageQuery (x := x) ht rfl rfl
  have hx : x.ownDocument files "a.js" = Document.ofList? [f] := by
    rw [ownDocument, result_of_miss sa rfl, ho]
    exact answer_document
  exact ⟨⟨f, []⟩, by simp [expected, hx, Document.ofList?], by simp [Document.definitions, hn]⟩

end QueryGlean
