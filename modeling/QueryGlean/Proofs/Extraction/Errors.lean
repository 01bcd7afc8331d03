import Mathlib
import QueryGlean.Proofs.Extraction.Candidates
import QueryGlean.Proofs.Extraction.Completion
import QueryGlean.Proofs.Extraction.FastPath

namespace QueryGlean

def TellsError (es : List Event) : Prop :=
  ∃ d, .reported d ∈ es ∧ d.severity = .error

def FailsIn (o : Except Breakdown CacheEntry) : Prop :=
  ∃ e, o = .ok e ∧ e.status.isOk = false

def FailedResult (r : Except Breakdown ExtractionResult) : Prop :=
  ∃ s, r = .ok s ∧ s.isOk = false

instance : DecidablePred FailedResult
  | .ok s    => decidable_of_iff (s.isOk = false) (by simp [FailedResult])
  | .error _ => .isFalse (by simp [FailedResult])

def Caller.Fails (jobs : List Job) (c : Caller) : Prop :=
  match c.stage with
  | .finished r => FailedResult r
  | .waiting j  => ∃ o, jobs[j]?.bind Job.outcome = some o ∧ FailsIn o
  | _           => False

-- How errors and failures belong together:
-- 1. an error is told for every caller that has failed, every job and every entry that is a failure
-- 2. an error is told for no other reason, so some caller has failed or is about to
-- 3. somebody waits for each job that has not run
structure Batch.Accounts (x : Extractor) (b : Batch) : Prop where
  callers : ∀ c ∈ b.callers, ∀ r, c.stage = .finished r → FailedResult r → TellsError b.events
  jobs    : ∀ job ∈ b.jobs, ∀ o ∈ job.outcome, FailsIn o → TellsError b.events
  entries : ∀ key e, b.cache.find? key = some e → e.WellFormed ∧ (e.status.isOk = false → TellsError b.events)
  errors  : TellsError b.events → ∃ c ∈ b.callers, c.Fails b.jobs
  awaited : ∀ j job, b.jobs[j]? = some job → job.outcome = none → ∃ c ∈ b.callers, c.stage = .waiting j

variable {x : Extractor} {files : FileTree} {path text : String} {es fs : List Event} {e : CacheEntry}
variable {r : Except Breakdown ExtractionResult} {o : Except Breakdown CacheEntry} {b b' : Batch} {i j : Nat}
variable {c c' : Caller} {job : Job} {jobs : List Job}

theorem tellsError_append : TellsError (es ++ fs) ↔ TellsError es ∨ TellsError fs := by
  simp [TellsError, or_and_right, exists_or]

theorem not_tellsError_of_not_reported (h : ∀ d, .reported d ∉ es) : ¬ TellsError es := by
  rintro ⟨d, hd, _⟩
  exact h d hd

theorem not_tellsError_of_warnings {ds : List Diagnostic} (h : ∀ d ∈ ds, d.severity = .warning) :
    ¬ TellsError (ds.map .reported) := by
  rintro ⟨d, hd, hs⟩
  have hd : d ∈ ds := by simpa using hd
  simp [h d hd] at hs

theorem FailsWith.tellsError {reason : FailureReason} (h : FailsWith path reason es) : TellsError es := by
  obtain ⟨init, d, error, rfl, hs, _⟩ := h
  exact ⟨d, by simp, hs⟩

theorem Collector.errors_recordAll (es : List Event) :
    (({} : Collector).recordAll es).errors.isEmpty = false ↔ TellsError es := by
  have hd (ev : Event) (d : Diagnostic) : ev.diagnostic? = some d ↔ ev = .reported d := by
    cases ev <;> simp [Event.diagnostic?]
  rw [← Bool.not_eq_true, List.isEmpty_iff, errors, diagnostics_recordAll]
  simp [List.filter_eq_nil_iff, TellsError, hd]

theorem Parsed.severity_fragments (p : Parsed) (s : Settings) (path : String) :
    ∀ d ∈ (p.fragments s path).2, d.severity = .warning := by
  refine List.forall_mem_append.mpr ⟨List.forall_mem_map.mpr fun r _ => rfl, fun d hd => ?_⟩
  exact Matcher.eq_globalTag_of_mem_normalizeAll hd ▸ rfl

-- Without preprocessors the source of a file is its text, and the one thing to report of it is that no language
-- takes it.
theorem Reading.of_reported_source {d : Diagnostic} (h : .reported d ∈ (source [] path text).2) :
    d = .parseFailed path ∧ (source [] path text).1 = .ok none := by
  have ha : .reported d ∉ (Parsed.attempt (.ofString text) (Language.candidates (.ofString path))).2 :=
    not_reported_attempt d
  simp only [source, Preprocessor.candidates] at h ⊢
  split at h
  case h_1 he =>
    rw [he] at ha
    exact absurd h ha
  case h_2 he =>
    rw [he] at ha
    simpa [he, ha] using h

namespace Extractor

theorem not_tellsError_of_source {p : Parsed} (h : Reading.source [] path text = (.ok (some p), es)) :
    ¬ TellsError es := by
  rintro ⟨d, hd, _⟩
  have hr : .reported d ∈ (Reading.source [] path text).2 := by rwa [h]
  have hs := (Reading.of_reported_source hr).right
  rw [h] at hs
  cases hs

theorem tellsError_outcome (hx : x.preprocessors = []) (path text : String) :
    TellsError (x.outcome path text).2 ↔ FailsIn (x.outcome path text).1 := by
  -- Queries that can be read are warned about and no more.
  have hw (p : Parsed) : ¬ TellsError ((p.fragments x.settings path).2.map .reported) :=
    not_tellsError_of_warnings (p.severity_fragments x.settings path)
  have hc := x.comesTo_outcome path text
  generalize x.outcome path text = o at hc ⊢
  cases hc
  case broken he =>
    have hs := Reading.fst_source_nil path text
    rw [← hx, he] at hs
    cases hs
  case unparsed he =>
    have hf := Reading.failsWith_of_source (congrArg Prod.fst he)
    rw [he] at hf
    exact iff_of_true hf.tellsError ⟨_, rfl, rfl⟩
  case bare he _ =>
    have hs := not_tellsError_of_source (hx ▸ he)
    simp [tellsError_append, hs, hw, FailsIn, ExtractionStatus.isOk]
  case extracted he _ _ =>
    have hs := not_tellsError_of_source (hx ▸ he)
    simp [tellsError_append, hs, hw, FailsIn, ExtractionStatus.isOk]
  case refused =>
    refine iff_of_true (tellsError_append.mpr (.inr ?_)) ⟨_, rfl, rfl⟩
    exact ⟨_, List.mem_cons_self, rfl⟩
  case unfit he _ =>
    have hs := not_tellsError_of_source (hx ▸ he)
    simp [tellsError_append, hs, hw, FailsIn]

theorem tellsError_of_sight (h : x.sight files path = .settled r es) : TellsError es ↔ FailedResult r := by
  cases settlesAtSight h
  case nulPath    => simp [TellsError, FailedResult]
  case unreadable => exact iff_of_true ⟨_, List.mem_cons_self, rfl⟩ ⟨_, rfl, rfl⟩
  case untagged   => simp [TellsError, FailedResult, ExtractionResult.isOk, ExtractionStatus.isOk]

theorem not_reported_successOf (d : Diagnostic) (path : String) (e : CacheEntry) :
    .reported d ∉ successOf path e := by
  unfold successOf
  split <;> simp

theorem not_reported_successOfOutcome (d : Diagnostic) (path : String) (o : Except Breakdown CacheEntry) :
    .reported d ∉ successOfOutcome path o := by
  cases o
  case error => simp [successOfOutcome]
  case ok e  => exact not_reported_successOf d path e

theorem failedResult_answer (h : e.WellFormed) (cached : Bool) :
    FailedResult (.ok (answer path e cached)) ↔ e.status.isOk = false := by
  simp [FailedResult, ExtractionResult.isOk, answer_status h]

theorem failedResult_map_answer (h : ∀ e, o = .ok e → e.WellFormed) (cached : Bool) :
    FailedResult (o.map (answer path · cached)) ↔ FailsIn o := by
  cases o
  case error => simp [FailedResult, FailsIn, Except.map]
  case ok e  => simpa [FailsIn, Except.map] using failedResult_answer (h e rfl) cached

end Extractor

namespace Batch

theorem exists_mem_set {P Q : Caller → Prop} {cs : List Caller} (h : ∃ c ∈ cs, P c) (hc : cs[i]? = some c)
    (hp : P c → Q c') (hm : ∀ d, P d → Q d) : ∃ d ∈ cs.set i c', Q d := by
  obtain ⟨d, hd, hpd⟩ := h
  obtain ⟨k, hk⟩ := List.getElem?_of_mem hd
  by_cases he : i = k
  case pos =>
    subst he
    cases Option.some.inj (hc.symm.trans hk)
    exact ⟨c', List.mem_set (List.getElem?_eq_some_iff.mp hc).1 c', hp hpd⟩
  case neg => exact ⟨d, List.mem_of_getElem? (List.getElem?_set_ne he ▸ hk), hm d hpd⟩

-- Jobs that have run keep what they came to.
theorem Step.bind_outcome (hs : Step x files b b') (h : b.jobs[j]?.bind Job.outcome = some o) :
    b'.jobs[j]?.bind Job.outcome = some o := by
  obtain ⟨job, hj, ho⟩ := Option.bind_eq_some_iff.mp h
  have hl := (List.getElem?_eq_some_iff.mp hj).1
  cases hs
  case begin => simpa [List.getElem?_append_left hl] using h
  case run k job' hk hn =>
    have hne : k ≠ j := by
      rintro rfl
      cases Option.some.inj (hk.symm.trans hj)
      simp [ho] at hn
    rwa [jobs_runJob, List.getElem?_set_ne hne]
  case land k job' hk _ _ =>
    rw [jobs_landJob]
    by_cases he : k = j
    case neg => rwa [List.getElem?_set_ne he]
    case pos =>
      subst he
      cases Option.some.inj (hk.symm.trans hj)
      rw [List.getElem?_set_self hl]
      exact ho
  all_goals exact h

theorem Step.fails (hs : Step x files b b') (h : c.Fails b.jobs) : c.Fails b'.jobs := by
  unfold Caller.Fails at h ⊢
  split at h
  case h_1 => exact h
  case h_2 => exact h.imp fun o ho => ⟨hs.bind_outcome ho.left, ho.right⟩
  case h_3 => exact h.elim

theorem Step.tellsError (hs : Step x files b b') (h : TellsError b.events) : TellsError b'.events := by
  cases hs
  case settle  => exact tellsError_append.mpr (.inl h)
  case hit     => exact tellsError_append.mpr (.inl h)
  case run     => exact tellsError_append.mpr (.inl h)
  case receive => exact tellsError_append.mpr (.inl h)
  case extract => exact tellsError_append.mpr (.inl (tellsError_append.mpr (.inl h)))
  all_goals exact h

theorem Faithful.wellFormed (h : b.Faithful x) (hj : b.jobs[j]? = some job) (ho : job.outcome = some o) :
    ∀ e, o = .ok e → e.WellFormed := by
  rintro e rfl
  exact Extractor.wellFormed_of_outcome (h.outcome hj ho).symm

theorem Accounts.callers_step (h : b.Accounts x) (hf : b.Faithful x) (hx : x.preprocessors = [])
    (hs : Step x files b b') :
    ∀ c ∈ b'.callers, ∀ r, c.stage = .finished r → FailedResult r → TellsError b'.events := by
  have old : ∀ c ∈ b.callers, ∀ r, c.stage = .finished r → FailedResult r → TellsError b'.events :=
    fun c hc r hr hf => hs.tellsError (h.callers c hc r hr hf)
  cases hs
  case run  => exact old
  case land => exact old
  case settle ht =>
    refine forall_mem_set old ?_
    rintro _ ⟨⟩ hr
    exact tellsError_append.mpr (.inr ((Extractor.tellsError_of_sight ht).mpr hr))
  case hit he =>
    refine forall_mem_set old ?_
    rintro _ ⟨⟩ hr
    have ⟨hw, ht⟩ := h.entries _ _ he
    exact tellsError_append.mpr (.inl (ht ((Extractor.failedResult_answer hw true).mp hr)))
  case receive hj ho =>
    refine forall_mem_set old ?_
    rintro _ ⟨⟩ hr
    have hr := (Extractor.failedResult_map_answer (hf.wellFormed hj ho) false).mp hr
    exact tellsError_append.mpr (.inl (h.jobs _ (List.mem_of_getElem? hj) _ ho hr))
  case extract path text _ =>
    refine forall_mem_set old ?_
    rintro _ ⟨⟩ hr
    have hr := (Extractor.failedResult_map_answer (fun _ => Extractor.wellFormed_of_outcome) false).mp hr
    exact tellsError_append.mpr (.inl (tellsError_append.mpr (.inr ((Extractor.tellsError_outcome hx path text).mpr hr))))
  all_goals exact forall_mem_set old (by simp)

theorem Accounts.jobs_step (h : b.Accounts x) (hx : x.preprocessors = []) (hs : Step x files b b') :
    ∀ job ∈ b'.jobs, ∀ o ∈ job.outcome, FailsIn o → TellsError b'.events := by
  have old : ∀ job ∈ b.jobs, ∀ o ∈ job.outcome, FailsIn o → TellsError b'.events :=
    fun job hj o ho hf => hs.tellsError (h.jobs job hj o ho hf)
  cases hs
  case begin => exact List.forall_mem_append.mpr ⟨old, by simp⟩
  case run job hj _ =>
    rw [jobs_runJob]
    refine forall_mem_set old ?_
    rintro _ ⟨⟩ hr
    exact tellsError_append.mpr (.inr ((Extractor.tellsError_outcome hx job.path job.text).mpr hr))
  case land hj _ _ =>
    rw [jobs_landJob]
    exact forall_mem_set old (old _ (List.mem_of_getElem? hj) :)
  all_goals exact old

theorem Accounts.entries_step (h : b.Accounts x) (hf : b.Faithful x) (hx : x.preprocessors = [])
    (hs : Step x files b b') :
    ∀ key e, b'.cache.find? key = some e → e.WellFormed ∧ (e.status.isOk = false → TellsError b'.events) := by
  intro key e he
  rcases hs.found hf he with he | ⟨path, text, _, ho, ht, _⟩
  case inl => exact (h.entries key e he).imp_right fun ht hn => hs.tellsError (ht hn)
  case inr =>
    refine ⟨Extractor.wellFormed_of_outcome ho.outcome, fun hn => ?_⟩
    obtain ⟨d, hd, hl⟩ := (Extractor.tellsError_outcome hx path text).mpr ⟨e, ho.outcome, hn⟩
    exact ⟨d, ht hd, hl⟩

theorem Accounts.errors_step (h : b.Accounts x) (hf : b.Faithful x) (hx : x.preprocessors = [])
    (hs : Step x files b b') : TellsError b'.events → ∃ c ∈ b'.callers, c.Fails b'.jobs := by
  -- Who answers for what has been told: a caller that goes on, one that has just failed, or one that stays as it
  -- is.
  have stays {i c c'} (hc : b.callers[i]? = some c) (hn : c.Fails b.jobs → c'.Fails b'.jobs)
      (he : TellsError b.events) : ∃ d ∈ b.callers.set i c', d.Fails b'.jobs :=
    exists_mem_set (h.errors he) hc hn fun _ => hs.fails
  have new {i c c'} (hc : b.callers[i]? = some c) (hn : c'.Fails b'.jobs) :
      ∃ d ∈ b.callers.set i c', d.Fails b'.jobs :=
    ⟨c', List.mem_set (List.getElem?_eq_some_iff.mp hc).1 c', hn⟩
  have same (he : TellsError b.events) : ∃ c ∈ b.callers, c.Fails b'.jobs :=
    (h.errors he).imp fun c hc => ⟨hc.left, hs.fails hc.right⟩
  intro he
  cases hs
  case settle hc ht =>
    rcases tellsError_append.mp he with he | he
    case inl => exact stays hc False.elim he
    case inr => exact new hc ((Extractor.tellsError_of_sight ht).mp he)
  case hit hc _ _ =>
    rcases tellsError_append.mp he with he | he
    case inl => exact stays hc False.elim he
    case inr => exact absurd he (not_tellsError_of_not_reported (Extractor.not_reported_successOf · _ _))
  case join hc _ _ _ _  => exact stays hc False.elim he
  case begin hc _ _ _ _ => exact stays hc False.elim he
  case work hc _ _ _    => exact stays hc False.elim he
  case land             => exact same he
  case run j job hj ho =>
    rw [events_runJob] at he
    rcases tellsError_append.mp he with he | he
    case inl => exact same he
    case inr =>
      -- The job that has run is awaited by somebody, who will get its failure.
      obtain ⟨c, hc, hw⟩ := h.awaited j job hj ho
      have hr : (b.runJob x j job).jobs[j]?.bind Job.outcome = some (job.result x) := by
        simp [(List.getElem?_eq_some_iff.mp hj).1]
      refine ⟨c, hc, ?_⟩
      rw [Caller.Fails, hw]
      exact ⟨_, hr, (Extractor.tellsError_outcome hx ..).mp he⟩
  case receive hc hj ho =>
    rcases tellsError_append.mp he with he | he
    case inr => exact absurd he (not_tellsError_of_not_reported (Extractor.not_reported_successOfOutcome · _ _))
    case inl =>
      refine stays hc ?_ he
      rintro ⟨o', ho', hr⟩
      rw [hj, Option.bind_some, ho] at ho'
      cases Option.some.inj ho'
      exact (Extractor.failedResult_map_answer (hf.wellFormed hj ho) false).mpr hr
  case extract hc =>
    rcases tellsError_append.mp he with he | he
    case inr => exact absurd he (not_tellsError_of_not_reported (Extractor.not_reported_successOfOutcome · _ _))
    case inl =>
      rcases tellsError_append.mp he with he | he
      case inl => exact stays hc False.elim he
      case inr =>
        refine new hc ((Extractor.failedResult_map_answer (fun _ => Extractor.wellFormed_of_outcome) false).mpr ?_)
        exact (Extractor.tellsError_outcome hx ..).mp he

theorem Accounts.awaited_step (h : b.Accounts x) (hs : Step x files b b') :
    ∀ j job, b'.jobs[j]? = some job → job.outcome = none → ∃ c ∈ b'.callers, c.stage = .waiting j := by
  intro j job hj ho
  have stays {i c c'} (hc : b.callers[i]? = some c) (hn : c.stage ≠ .waiting j) (hj : b.jobs[j]? = some job) :
      ∃ d ∈ b.callers.set i c', d.stage = .waiting j :=
    exists_mem_set (h.awaited j job hj ho) hc (absurd · hn) fun _ => id
  cases hs
  case settle hc _     => exact stays hc (by simp) hj
  case hit hc _ _      => exact stays hc (by simp) hj
  case join hc _ _ _ _ => exact stays hc (by simp) hj
  case work hc _ _ _   => exact stays hc (by simp) hj
  case extract hc      => exact stays hc (by simp) hj
  case begin hc _ _ _ _ =>
    by_cases hl : j < b.jobs.length
    case pos => exact stays hc (by simp) (List.getElem?_append_left hl ▸ hj)
    case neg =>
      -- Only the job that begins is new, and its caller waits for it.
      have hl' : j < (b.jobs ++ [_]).length := (List.getElem?_eq_some_iff.mp hj).1
      have he : j = b.jobs.length := by simp at hl'; omega
      exact ⟨_, List.mem_set (List.getElem?_eq_some_iff.mp hc).1 _, by rw [he]⟩
  case run k job' hk _ =>
    rw [jobs_runJob] at hj
    by_cases he : k = j
    case pos =>
      rw [he, List.getElem?_set_self (he ▸ (List.getElem?_eq_some_iff.mp hk).1)] at hj
      cases Option.some.inj hj
      cases ho
    case neg => exact h.awaited j job (List.getElem?_set_ne he ▸ hj) ho
  case land k job' hk hr _ =>
    rw [jobs_landJob] at hj
    by_cases he : k = j
    case pos =>
      rw [he, List.getElem?_set_self (he ▸ (List.getElem?_eq_some_iff.mp hk).1)] at hj
      cases Option.some.inj hj
      rw [show job'.outcome = none from ho] at hr
      cases hr
    case neg => exact h.awaited j job (List.getElem?_set_ne he ▸ hj) ho
  case receive k job' o hc hk hr =>
    refine stays hc ?_ hj
    rintro ⟨⟩
    cases Option.some.inj (hk.symm.trans hj)
    rw [ho] at hr
    cases hr

theorem Accounts.step (h : b.Accounts x) (hf : b.Faithful x) (hx : x.preprocessors = []) (hs : Step x files b b') :
    b'.Accounts x where
  callers := h.callers_step hf hx hs
  jobs    := h.jobs_step hx hs
  entries := h.entries_step hf hx hs
  errors  := h.errors_step hf hx hs
  awaited := h.awaited_step hs

theorem accounts_run (hx : x.preprocessors = []) (files : FileTree) (paths : List String) (moves : List Move) :
    ((ofPaths {} paths).run x files moves).Accounts x := by
  refine (run_induction x files (P := fun b => b.Faithful x ∧ b.Accounts x) ⟨?_, ?_⟩ ?_ moves).right
  · simp [Faithful, ofPaths]
  · exact ⟨by simp [ofPaths], by simp [ofPaths], by simp [ofPaths, Cache.find?], by simp [ofPaths, TellsError],
      by simp [ofPaths]⟩
  · exact fun b b' h hs => ⟨hs.faithful h.left, h.right.step h.left hx hs⟩

theorem map_path_run (paths : List String) (moves : List Move) :
    ((ofPaths {} paths).run x files moves).callers.map Caller.path = paths := by
  refine run_induction x files (P := fun b => b.callers.map Caller.path = paths) ?_ ?_ moves
  · simp [ofPaths, Function.comp_def]
  · exact fun b b' h hs => hs.paths.trans h

theorem mem_results {p : String × Except Breakdown ExtractionResult} :
    p ∈ b.results ↔ ∃ c ∈ b.callers, c.stage = .finished p.2 ∧ c.path = p.1 := by
  simp only [results, List.mem_filterMap]
  refine exists_congr fun c => and_congr_right fun _ => ?_
  split <;> simp_all [Prod.ext_iff, and_comm]

theorem Complete.map_fst_results (h : b.Complete) : b.results.map Prod.fst = b.callers.map Caller.path := by
  rw [results, List.map_filterMap, ← List.filterMap_eq_map]
  refine List.filterMap_congr fun c hc => ?_
  obtain ⟨r, hr⟩ := h c hc
  simp [hr]

-- At the end an error has been told exactly if the result of some caller is a failure.
theorem Accounts.tellsError_iff (h : b.Accounts x) (hc : b.Complete) :
    TellsError b.events ↔ ∃ p ∈ b.results, FailedResult p.2 := by
  constructor
  case mp =>
    intro he
    obtain ⟨c, hm, hf⟩ := h.errors he
    obtain ⟨r, hr⟩ := hc c hm
    rw [Caller.Fails, hr] at hf
    exact ⟨(c.path, r), mem_results.mpr ⟨c, hm, hr, rfl⟩, hf⟩
  case mpr =>
    rintro ⟨p, hp, hf⟩
    obtain ⟨c, hm, hr, _⟩ := mem_results.mp hp
    exact h.callers c hm _ hr hf

end Batch

namespace Extractor

theorem map_fst_gather (x : Extractor) (files : FileTree) (paths : List String) :
    (x.gather files {} paths).results.map Prod.fst = paths := by
  have hc : (x.gather files {} paths).Complete := Batch.complete_of_schedule x files {} paths
  rw [hc.map_fst_results]
  exact Batch.map_path_run paths _

-- That a file breaks down is noted, and nothing more is told of it.
theorem tellsError_documents (hx : x.preprocessors = []) (files : FileTree) (paths : List String) :
    TellsError (x.documents files {} paths).2.2 ↔ ∃ p ∈ (x.gather files {} paths).results, FailedResult p.2 := by
  have hn (rs : List (String × Except Breakdown ExtractionResult)) : ¬ TellsError (Batch.breakdowns rs) := by
    rintro ⟨d, hd, _⟩
    obtain ⟨⟨p, r⟩, _, hr⟩ := List.mem_filterMap.mp hd
    cases r <;> simp at hr
  have ha := Batch.accounts_run hx files paths (Batch.schedule x paths.length)
  rw [documents, tellsError_append, or_iff_left (hn _)]
  exact ha.tellsError_iff (Batch.complete_of_schedule x files {} paths)

end Extractor

end QueryGlean
