import QueryGlean.Extraction.Batch
import QueryGlean.Proofs.Extraction.Basic

namespace QueryGlean

def Job.contents (job : Job) : String × String :=
  (job.path, job.text)

def Job.result (x : Extractor) (job : Job) : Except Breakdown CacheEntry :=
  (x.outcome job.path job.text).1

theorem Job.result_of_contents {x : Extractor} {job : Job} {path text : String}
    (h : job.contents = (path, text)) : job.result x = (x.outcome path text).1 := by
  simp only [contents, Prod.mk.injEq] at h
  rw [result, h.left, h.right]

structure Job.Faithful (x : Extractor) (job : Job) : Prop where
  key     : job.key = contentKey job.path job.text
  outcome : ∀ o ∈ job.outcome, o = job.result x
  landed  : job.landed → job.outcome.isSome

namespace Batch

def Faithful (x : Extractor) (b : Batch) : Prop :=
  ∀ job ∈ b.jobs, job.Faithful x

inductive Step (x : Extractor) (files : FileTree) (b : Batch) : Batch → Prop
  -- The file settles the result.
  | settle {i path r es}
      (caller : b.callers[i]? = some ⟨path, .starting⟩) (sight : x.sight files path = .settled r es) :
      Step x files b (b.finish i path r es)
  | hit {i path text e}
      (caller : b.callers[i]? = some ⟨path, .starting⟩) (sight : x.sight files path = .contents text)
      (found : b.cache.find? (contentKey path text) = some e) :
      Step x files b ({ b with cache := (b.cache.get (contentKey path text)).2 }.finish i path
        (.ok (Extractor.answer path e true)) (Extractor.successOf path e))
  | join {i path text j}
      (caller : b.callers[i]? = some ⟨path, .starting⟩) (sight : x.sight files path = .contents text)
      (missed : b.cache.find? (contentKey path text) = none) (coalesce : x.settings.coalesce)
      (flying : b.inFlight.lookup (contentKey path text) = some j) :
      Step x files b { b with
        callers := b.callers.set i ⟨path, .waiting j⟩
        cache   := (b.cache.get (contentKey path text)).2 }
  | begin {i path text}
      (caller : b.callers[i]? = some ⟨path, .starting⟩) (sight : x.sight files path = .contents text)
      (missed : b.cache.find? (contentKey path text) = none) (coalesce : x.settings.coalesce)
      (free : b.inFlight.lookup (contentKey path text) = none) :
      Step x files b { b with
        callers  := b.callers.set i ⟨path, .waiting b.jobs.length⟩
        cache    := (b.cache.get (contentKey path text)).2
        jobs     := b.jobs ++ [{ key := contentKey path text, path, text }]
        inFlight := (contentKey path text, b.jobs.length) :: b.inFlight }
  | work {i path text}
      (caller : b.callers[i]? = some ⟨path, .starting⟩) (sight : x.sight files path = .contents text)
      (missed : b.cache.find? (contentKey path text) = none) (separate : ¬x.settings.coalesce) :
      Step x files b { b with
        callers := b.callers.set i ⟨path, .extracting text⟩
        cache   := (b.cache.get (contentKey path text)).2 }
  | run {j job} (job_at : b.jobs[j]? = some job) (unfinished : job.outcome = none) :
      Step x files b (b.runJob x j job)
  | land {j job} (job_at : b.jobs[j]? = some job) (finished : job.outcome.isSome) (flying : ¬job.landed) :
      Step x files b (b.landJob j job)
  | receive {i path j job o}
      (caller : b.callers[i]? = some ⟨path, .waiting j⟩) (job_at : b.jobs[j]? = some job)
      (outcome : job.outcome = some o) :
      Step x files b (b.finishWith i path o)
  | extract {i path text} (caller : b.callers[i]? = some ⟨path, .extracting text⟩) :
      Step x files b ({ b with
        cache  := Extractor.keepOutcome b.cache (contentKey path text) (x.outcome path text).1
        events := b.events ++ (x.outcome path text).2 }.finishWith i path (x.outcome path text).1)

variable {x : Extractor} {files : FileTree} {b b' : Batch} {i j : Nat} {path text : String} {m : Move}
variable {c : Caller} {job : Job} {o : Except Breakdown CacheEntry}

@[simp]
theorem jobs_runJob : (b.runJob x j job).jobs = b.jobs.set j { job with outcome := job.result x } :=
  rfl

@[simp]
theorem cache_runJob : (b.runJob x j job).cache = Extractor.keepOutcome b.cache job.key (job.result x) :=
  rfl

@[simp]
theorem events_runJob : (b.runJob x j job).events = b.events ++ (x.outcome job.path job.text).2 :=
  rfl

@[simp]
theorem jobs_landJob : (b.landJob j job).jobs = b.jobs.set j { job with landed := true } :=
  rfl

theorem forall_mem_set {α : Type} {P : α → Prop} {l : List α} {a : α} (hl : ∀ a ∈ l, P a) (ha : P a) :
    ∀ c ∈ l.set i a, P c := by
  intro c hc
  cases List.mem_or_eq_of_mem_set hc
  case inl hc => exact hl c hc
  case inr hc => exact hc ▸ ha

theorem forall_getElem?_set {α : Type} {P : α → Prop} {l : List α} {a : α}
    (hl : ∀ c, l[j]? = some c → P c) (ha : P a) : ∀ c, (l.set i a)[j]? = some c → P c := by
  intro c hc
  by_cases he : i = j
  case neg => exact hl c (List.getElem?_set_ne he ▸ hc)
  case pos =>
    have ⟨_, hc⟩ := List.getElem?_eq_some_iff.mp hc
    simp only [he, List.getElem_set_self] at hc
    exact hc ▸ ha

theorem map_set {α β : Type} {f : α → β} {l : List α} {a c : α} (h : l[i]? = some a) (hf : f c = f a) :
    (l.set i c).map f = l.map f := by
  have ⟨hj, he⟩ := List.getElem?_eq_some_iff.mp h
  rw [List.map_set, hf, ← he, ← List.getElem_map f, List.set_getElem_self]
  simpa using hj

theorem step_start (h : b.callers[i]? = some ⟨path, .starting⟩) :
    b.step x files (.start i) = b.startCaller x files i path := by
  simp only [step, h]

theorem step_start_of_missed (h : b.callers[i]? = some ⟨path, .starting⟩)
    (hs : x.sight files path = .contents text) (hn : b.cache.find? (contentKey path text) = none)
    (hx : x.settings.coalesce) :
    b.step x files (.start i) =
      join { b with cache := (b.cache.get (contentKey path text)).2 } i path text (contentKey path text) := by
  rw [step_start h]
  unfold startCaller
  rw [hs]
  dsimp only
  rw [Cache.get_eq, hn]
  simp only [hx, if_true]

theorem step_run (h : b.jobs[j]? = some job) (ho : job.outcome = none) :
    b.step x files (.run j) = b.runJob x j job := by
  simp [step, h, ho]

theorem step_resume (h : b.callers[i]? = some c) : b.step x files (.resume i) = b.resumeCaller x i c := by
  simp only [step, h]

theorem step_resume_of_waiting (h : b.callers[i]? = some ⟨path, .waiting j⟩) (hj : b.jobs[j]? = some job)
    (ho : job.outcome = some o) : b.step x files (.resume i) = b.finishWith i path o := by
  rw [step_resume h]
  simp [resumeCaller, hj, ho]

theorem step_startCaller (h : b.callers[i]? = some ⟨path, .starting⟩) :
    Step x files b (b.startCaller x files i path) := by
  unfold startCaller
  split
  case h_1 r es hs => exact .settle h hs
  case h_2 text hs =>
    dsimp only
    rw [Cache.get_eq]
    cases hf : b.cache.find? (contentKey path text)
    case some e => exact .hit h hs hf
    case none =>
      dsimp only
      split
      case isFalse hc => exact .work h hs hf hc
      case isTrue hc =>
        unfold join
        split
        case h_1 j hj => exact .join h hs hf hc hj
        case h_2 hj   => exact .begin h hs hf hc hj

theorem step_resumeCaller (h : b.callers[i]? = some c) :
    b.resumeCaller x i c = b ∨ Step x files b (b.resumeCaller x i c) := by
  obtain ⟨path, stage⟩ := c
  cases stage
  case starting   => exact .inl rfl
  case finished   => exact .inl rfl
  case extracting => exact .inr (.extract h)
  case waiting j =>
    simp only [resumeCaller]
    cases ho : b.jobs[j]?.bind Job.outcome
    case none => exact .inl rfl
    case some o =>
      have ⟨job, hj, ho⟩ := Option.bind_eq_some_iff.mp ho
      exact .inr (.receive h hj ho)

theorem step_cases (x : Extractor) (files : FileTree) (b : Batch) (m : Move) :
    b.step x files m = b ∨ Step x files b (b.step x files m) := by
  cases m <;> simp only [step]
  case start i =>
    split
    case h_1 h => exact .inr (step_startCaller h)
    case h_2   => exact .inl rfl
  case run j =>
    split
    case h_2 => exact .inl rfl
    case h_1 job h =>
      split
      case isTrue ho => exact .inr (.run h (Option.isNone_iff_eq_none.mp ho))
      case isFalse   => exact .inl rfl
  case land j =>
    split
    case h_2 => exact .inl rfl
    case h_1 job h =>
      split
      case isTrue hl => exact .inr (.land h (by simp_all) (by simp_all))
      case isFalse   => exact .inl rfl
  case resume i =>
    split
    case h_1 h => exact step_resumeCaller h
    case h_2   => exact .inl rfl

-- A step lets at most one caller go on, which has not come to its end and has looked at its file afterwards.
theorem Step.callers (h : Step x files b b') :
    b'.callers = b.callers ∨ ∃ i c stage, b.callers[i]? = some c ∧ (∀ r, c.stage ≠ .finished r) ∧
      stage ≠ .starting ∧ b'.callers = b.callers.set i ⟨c.path, stage⟩ := by
  cases h
  case run  => exact .inl rfl
  case land => exact .inl rfl
  all_goals
    refine .inr ⟨_, _, _, ‹_›, ?_, ?_, rfl⟩
    all_goals simp

theorem Step.paths (h : Step x files b b') : b'.callers.map Caller.path = b.callers.map Caller.path := by
  rcases h.callers with he | ⟨i, c, stage, hc, _, _, he⟩
  case inl => rw [he]
  case inr =>
    rw [he, map_set hc]
    rfl

def runAmid (x : Extractor) (b : Batch) (moves : List (FileTree × Move)) : Batch :=
  moves.foldl (fun b m => b.step x m.1 m.2) b

theorem run_eq_runAmid (x : Extractor) (files : FileTree) (b : Batch) (moves : List Move) :
    b.run x files moves = b.runAmid x (moves.map (files, ·)) := by
  rw [run, runAmid, List.foldl_map]

theorem runAmid_append {ms ms' : List (FileTree × Move)} :
    b.runAmid x (ms ++ ms') = (b.runAmid x ms).runAmid x ms' :=
  List.foldl_append

theorem run_append {ms ms' : List Move} : b.run x files (ms ++ ms') = (b.run x files ms).run x files ms' :=
  List.foldl_append

-- What each of the steps preserves, runs preserve.
theorem runAmid_induction {P : Batch → Prop} {moves : List (FileTree × Move)} (h : P b)
    (hs : ∀ m ∈ moves, ∀ b b', P b → Step x m.1 b b' → P b') : P (b.runAmid x moves) := by
  refine List.foldlRecOn moves _ h fun b hb m hm => (step_cases x m.1 b m.2).elim ?_ (hs m hm _ _ hb)
  intro he
  rwa [he]

theorem run_induction (x : Extractor) (files : FileTree) {P : Batch → Prop} (h : P b)
    (hs : ∀ b b', P b → Step x files b b' → P b') (moves : List Move) : P (b.run x files moves) := by
  rw [run_eq_runAmid]
  exact runAmid_induction h (List.forall_mem_map.mpr fun _ _ => hs)

-- What a move brings about wherever it is made, a run brings about that makes it, if nothing undoes it.
theorem runAmid_of_mem {P Q : Batch → Prop} {moves : List (FileTree × Move)} (h : P b)
    (hm : m ∈ moves.map Prod.snd)
    (hp : ∀ files b b', P b → Step x files b b' → P b') (hq : ∀ files b b', Q b → Step x files b b' → Q b')
    (hs : ∀ files b, P b → Q (b.step x files m)) : Q (b.runAmid x moves) := by
  obtain ⟨⟨files, m⟩, hf, rfl⟩ := List.mem_map.mp hm
  obtain ⟨before, after, rfl⟩ := List.append_of_mem hf
  rw [runAmid, List.foldl_append, List.foldl_cons]
  have hb : P (b.runAmid x before) := runAmid_induction h fun _ _ _ _ => hp _ _ _
  exact runAmid_induction (hs files _ hb) fun _ _ _ _ => hq _ _ _

def JobAt (j : Nat) (P : Job → Prop) (b : Batch) : Prop :=
  ∃ job, b.jobs[j]? = some job ∧ P job

-- What is true of a job stays true of it, if it does not hang on that the job has not run or has not landed.
theorem JobAt.step {P : Job → Prop} (h : b.JobAt j P) (hs : Step x files b b')
    (hr : ∀ job o, P job → P { job with outcome := some o }) (hl : ∀ job, P job → P { job with landed := true }) :
    b'.JobAt j P := by
  obtain ⟨job, hj, hp⟩ := h
  have there := (List.getElem?_eq_some_iff.mp hj).1
  cases hs
  case begin => exact ⟨job, (List.getElem?_append_left there).trans hj, hp⟩
  case run k other hk _ =>
    by_cases he : k = j
    case neg => exact ⟨job, (List.getElem?_set_ne he).trans hj, hp⟩
    case pos =>
      subst he
      cases Option.some.inj (hj.symm.trans hk)
      exact ⟨_, List.getElem?_set_self there, hr _ _ hp⟩
  case land k other hk _ _ =>
    by_cases he : k = j
    case neg => exact ⟨job, (List.getElem?_set_ne he).trans hj, hp⟩
    case pos =>
      subst he
      cases Option.some.inj (hj.symm.trans hk)
      exact ⟨_, List.getElem?_set_self there, hl _ hp⟩
  all_goals exact ⟨job, hj, hp⟩

theorem JobAt.ran (h : b.JobAt j fun _ => True) :
    (b.step x files (.run j)).JobAt j fun job => job.outcome.isSome := by
  obtain ⟨job, hj, _⟩ := h
  simp only [Batch.step, hj]
  split
  case isTrue     => exact ⟨_, List.getElem?_set_self (List.getElem?_eq_some_iff.mp hj).1, rfl⟩
  case isFalse ho => exact ⟨job, hj, by simpa [Option.isSome_iff_ne_none] using ho⟩

theorem JobAt.landed (h : b.JobAt j fun job => job.outcome.isSome) :
    (b.step x files (.land j)).JobAt j fun job => job.landed := by
  obtain ⟨job, hj, ho⟩ := h
  simp only [Batch.step, hj]
  split
  case isTrue     => exact ⟨_, List.getElem?_set_self (List.getElem?_eq_some_iff.mp hj).1, rfl⟩
  case isFalse hl => exact ⟨job, hj, by simpa [ho] using hl⟩

theorem landed_of_runAmid {moves : List (FileTree × Move)} (hj : j < b.jobs.length)
    (hm : [.run j, .land j].Sublist (moves.map Prod.snd)) :
    (b.runAmid x moves).JobAt j fun job => job.landed := by
  obtain ⟨_, _, he, hr, hl⟩ := List.cons_sublist_iff.mp hm
  obtain ⟨early, late, rfl, rfl, rfl⟩ := List.map_eq_append_iff.mp he
  have there : b.JobAt j fun _ => True := ⟨_, List.getElem?_eq_getElem hj, trivial⟩
  -- Nothing undoes that a job has run.
  have stays : ∀ files b b', b.JobAt j (fun job => job.outcome.isSome) → Step x files b b' →
      b'.JobAt j fun job => job.outcome.isSome :=
    fun _ _ _ h hs => h.step hs (fun _ _ _ => rfl) fun _ h => h
  have ran : (b.runAmid x early).JobAt j fun job => job.outcome.isSome :=
    runAmid_of_mem there hr (fun _ _ _ h hs => h.step hs (fun _ _ h => h) fun _ h => h) stays fun _ _ => JobAt.ran
  rw [runAmid_append]
  refine runAmid_of_mem ran (List.singleton_sublist.mp hl) stays ?_ fun _ _ => JobAt.landed
  exact fun _ _ _ h hs => h.step hs (fun _ _ h => h) fun _ _ => rfl

-- Jobs stay what they are for.
theorem Step.contents (h : Step x files b b') : b.jobs.map Job.contents <+: b'.jobs.map Job.contents := by
  cases h
  case begin => exact ⟨_, (List.map_append ..).symm⟩
  case run j job h _ =>
    have he := map_set (f := Job.contents) (c := { job with outcome := some (job.result x) }) h rfl
    simp only [jobs_runJob, he, List.prefix_rfl]
  case land j job h _ _ =>
    have he := map_set (f := Job.contents) (c := { job with landed := true }) h rfl
    simp only [jobs_landJob, he, List.prefix_rfl]
  all_goals exact List.prefix_rfl

theorem Step.getElem?_contents {p : String × String} (h : Step x files b b')
    (hj : (b.jobs.map Job.contents)[j]? = some p) : (b'.jobs.map Job.contents)[j]? = some p := by
  have ⟨hl, he⟩ := List.getElem?_eq_some_iff.mp hj
  exact he ▸ List.prefix_iff_getElem?.mp h.contents j hl

theorem Step.faithful (h : Step x files b b') (hj : b.Faithful x) : b'.Faithful x := by
  cases h
  case begin path text _ _ _ _ =>
    exact List.forall_mem_append.mpr ⟨hj, by simpa using ⟨rfl, by simp, by simp⟩⟩
  case run h _ =>
    have hf := hj _ (List.mem_of_getElem? h)
    rw [Faithful, jobs_runJob]
    exact forall_mem_set hj ⟨hf.key, fun o ho => (Option.some.inj ho).symm, fun _ => rfl⟩
  case land h ho _ =>
    have hf := hj _ (List.mem_of_getElem? h)
    rw [Faithful, jobs_landJob]
    exact forall_mem_set hj ⟨hf.key, hf.outcome, fun _ => ho⟩
  all_goals exact hj

-- What a step leaves to be found was there before, or it is kept of contents that are worked on: those of a job, or
-- those of a caller that does the work itself. What there is to tell of them has been told by then.
theorem Step.found (h : Step x files b b') (hf : b.Faithful x) {key : String} {e : CacheEntry}
    (he : b'.cache.find? key = some e) :
    b.cache.find? key = some e ∨ ∃ path text, contentKey path text = key ∧ x.Settles path text e ∧
      (x.outcome path text).2 ⊆ b'.events ∧
        (⟨path, .extracting text⟩ ∈ b.callers ∨ (path, text) ∈ b.jobs.map Job.contents) := by
  have looked {k : String} (he : (b.cache.get k).2.find? key = some e) : b.cache.find? key = some e :=
    Cache.find?_get .. ▸ he
  cases h
  case settle  => exact .inl he
  case hit     => exact .inl (looked he)
  case join    => exact .inl (looked he)
  case begin   => exact .inl (looked he)
  case work    => exact .inl (looked he)
  case land    => exact .inl he
  case receive => exact .inl he
  case run j job hj _ =>
    have hm : job ∈ b.jobs := List.mem_of_getElem? hj
    rcases Extractor.find?_or_kept he with he | ⟨hk, ho, hs⟩
    case inl => exact .inl he
    case inr =>
      refine .inr ⟨job.path, job.text, (hk.trans (hf job hm).key).symm, ⟨ho, hs⟩, ?_, .inr (List.mem_map_of_mem hm)⟩
      exact List.subset_append_right _ _
  case extract path text hc =>
    rcases Extractor.find?_or_kept he with he | ⟨hk, ho, hs⟩
    case inl => exact .inl he
    case inr =>
      refine .inr ⟨path, text, hk.symm, ⟨ho, hs⟩, ?_, .inl (List.mem_of_getElem? hc)⟩
      exact List.Subset.trans (List.subset_append_right _ _) (List.subset_append_left _ _)

theorem Faithful.runAmid (h : b.Faithful x) (moves : List (FileTree × Move)) :
    (b.runAmid x moves).Faithful x :=
  runAmid_induction h fun _ _ _ _ h hs => hs.faithful h

theorem Faithful.outcome (h : b.Faithful x) (hj : b.jobs[j]? = some job) (ho : job.outcome = some o) :
    o = job.result x :=
  (h job (List.mem_of_getElem? hj)).outcome o ho

end Batch

end QueryGlean
