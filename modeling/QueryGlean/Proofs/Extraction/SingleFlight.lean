import QueryGlean.Proofs.Extraction.Completion
import QueryGlean.Proofs.Extraction.Events
import QueryGlean.Proofs.Extraction.History

namespace QueryGlean

-- What callers tell themselves: that a file cannot be read, and that there are fragments.
def Event.isOfCaller : Event → Bool
  | .reported d        => d.code = "read-failed"
  | .failed _ reason _ => reason = .read
  | .succeeded _       => true
  | .noted _           => false

namespace Job

def Settles (x : Extractor) (job : Job) : Prop :=
  ∃ e, job.result x = .ok e ∧ e.status ∈ ExtractionStatus.kept

def flight (job : Job) : String × Bool :=
  (job.key, job.landed)

def told (x : Extractor) (job : Job) : List Event :=
  if job.outcome.isSome then (x.outcome job.path job.text).2 else []

def resultFor (x : Extractor) (job : Job) (path : String) : Except Breakdown ExtractionResult :=
  (job.result x).map (Extractor.answer path · false)

theorem Settles.isSome_kept? {x : Extractor} {job : Job} (h : job.Settles x) :
    (Extractor.kept? (job.result x)).isSome := by
  have ⟨e, hr, hs⟩ := h
  have hq : e.status ≠ .queryError := fun he => by simp [he, ExtractionStatus.kept] at hs
  exact Option.isSome_of_eq_some (Extractor.kept?_eq_some_iff.mpr ⟨hr, hq⟩)

end Job

namespace Extractor

variable {x : Extractor} {files : FileTree} {path text : String} {e : CacheEntry} {es : List Event}
variable {r : Except Breakdown ExtractionResult} {o : Except Breakdown CacheEntry}

theorem isOfCaller_sight (h : x.sight files path = .settled r es) : ∀ ev ∈ es, ev.isOfCaller := by
  cases settlesAtSight h
  case nulPath    => simp
  case unreadable => simp [Event.isOfCaller, Diagnostic.readFailed]
  case untagged   => simp

theorem isOfCaller_successOf : ∀ ev ∈ successOf path e, ev.isOfCaller := by
  unfold successOf
  split <;> simp [Event.isOfCaller]

theorem isOfCaller_successOfOutcome : ∀ ev ∈ successOfOutcome path o, ev.isOfCaller := by
  cases o
  case error => simp [successOfOutcome]
  case ok    => exact isOfCaller_successOf

theorem filter_outcome (x : Extractor) (path text : String) :
    (x.outcome path text).2.filter (!·.isOfCaller) = (x.outcome path text).2 := by
  refine List.filter_eq_self.mpr fun ev hm => ?_
  have ha := x.isAbout_outcome path text ev hm
  cases ev <;> simp_all [Event.IsAbout, Event.isOfCaller]

end Extractor

namespace Batch

-- How the jobs, the cache and the keys in flight belong together:
-- 1. an entry that is kept is in the cache as soon as its job has run
-- 2. the keys in flight are those of the jobs that have not landed
-- 3. jobs of one key follow each other, and only after a failure
-- 4. all that is told is told by a caller for itself, or once by a job
structure Sound (x : Extractor) (b : Batch) : Prop where
  kept   : ∀ job ∈ b.jobs, job.outcome.isSome → job.Settles x → (b.cache.find? job.key).isSome
  flying : ∀ key j, (key, j) ∈ b.inFlight ↔ (b.jobs.map Job.flight)[j]? = some (key, false)
  again  : b.jobs.Pairwise fun first next => first.key = next.key → first.landed ∧ ¬first.Settles x
  told   : (b.events.filter (!·.isOfCaller)).Perm (b.jobs.flatMap (Job.told x))

def Joint (b : Batch) : Prop :=
  ∀ c ∈ b.callers, ∀ text, c.stage ≠ .extracting text

structure Awaits (x : Extractor) (i : Nat) (path : String) (j : Nat) (job : Job) (b : Batch) : Prop where
  work   : (b.jobs.map Job.contents)[j]? = some job.contents
  caller : b.callers[i]? = some ⟨path, .waiting j⟩ ∨
    b.callers[i]? = some ⟨path, .finished (job.resultFor x path)⟩

-- What it is to share extractions:
-- 1. all work is done by jobs
-- 2. at most one job of a key is unfinished
-- 3. if what becomes of the jobs of a key is kept, there is only one
-- 4. in any case, a job whose entry is kept is the last one of its key, and all before it have failed
-- 5. a caller that finds a job in flight begins none, and gets what becomes of that job
-- 6. whatever is told of contents is told once by each job for them
-- 7. when all jobs have landed, no key is in flight
-- 8. in particular none is after moves among which each job runs and then lands, and no job begins
structure SingleFlight (x : Extractor) (b : Batch) : Prop where
  joint  : b.Joint
  alone  : ∀ key, (b.jobs.filter fun job => job.key = key ∧ job.outcome.isNone).length ≤ 1
  once   : ∀ job ∈ b.jobs, (∀ other ∈ b.jobs, other.key = job.key → other.Settles x) →
    b.jobs.filter (·.key = job.key) = [job]
  last   : ∀ job ∈ b.jobs, job.Settles x → ∃ failed,
    b.jobs.filter (·.key = job.key) = failed ++ [job] ∧ ∀ other ∈ failed, ¬other.Settles x
  shared : ∀ files i path text j, b.callers[i]? = some ⟨path, .starting⟩ →
    x.sight files path = .contents text → b.cache.find? (contentKey path text) = none →
    b.inFlight.lookup (contentKey path text) = some j →
    (b.step x files (.start i)).jobs = b.jobs ∧
    ∃ job, b.jobs[j]? = some job ∧ job.key = contentKey path text ∧
      ∀ moves, let later := (b.step x files (.start i)).runAmid x moves
        Awaits x i path j job later ∧
        (later.run x files [.run j, .resume i]).callers[i]? = some ⟨path, .finished (job.resultFor x path)⟩
  told   : (b.events.filter (!·.isOfCaller)).Perm (b.jobs.flatMap (Job.told x))
  freed  : (∀ job ∈ b.jobs, job.landed) → b.inFlight = []
  ended  : ∀ moves : List (FileTree × Move), let later := b.runAmid x moves
    (∀ j < b.jobs.length, [.run j, .land j].Sublist (moves.map Prod.snd)) →
      later.jobs.length = b.jobs.length → later.inFlight = []

variable {x : Extractor} {files : FileTree} {b b' : Batch} {i j k : Nat} {path text key : String}
variable {job job' other : Job} {es : List Event} {r : Except Breakdown ExtractionResult}
variable {o : Except Breakdown CacheEntry}

theorem Joint.step (h : b.Joint) (hc : x.settings.coalesce) (hs : Step x files b b') : b'.Joint := by
  cases hs
  case work hn => exact (hn hc).elim
  case run     => exact h
  case land    => exact h
  all_goals exact forall_mem_set h (by simp)

theorem Sound.of_caller (h : b.Sound x) (hj : b'.jobs = b.jobs) (hf : b'.inFlight = b.inFlight)
    (hk : ∀ key, b'.cache.find? key = b.cache.find? key) (he : b'.events = b.events ++ es)
    (hc : ∀ ev ∈ es, ev.isOfCaller) : b'.Sound x where
  kept   := by simpa only [hj, hk] using h.kept
  flying := by simpa only [hj, hf] using h.flying
  again  := hj ▸ h.again
  told := by
    have hn : es.filter (!·.isOfCaller) = [] := by simpa [List.filter_eq_nil_iff] using hc
    simpa only [hj, he, List.filter_append, hn, List.append_nil] using h.told

theorem Sound.eq_of_flying (h : b.Sound x) (hj : (b.jobs.map Job.flight)[j]? = some (key, false))
    (hk : (b.jobs.map Job.flight)[k]? = some (key, false)) : j = k := by
  have landed {j k : Nat} (hjk : j < k) (hj : (b.jobs.map Job.flight)[j]? = some (key, false))
      (hk : (b.jobs.map Job.flight)[k]? = some (key, false)) : False := by
    simp only [List.getElem?_map, Option.map_eq_some_iff, List.getElem?_eq_some_iff] at hj hk
    obtain ⟨_, ⟨hj, rfl⟩, hfj⟩ := hj
    obtain ⟨_, ⟨hk, rfl⟩, hfk⟩ := hk
    have hr := List.pairwise_iff_getElem.mp h.again j k hj hk hjk
    simp_all [Job.flight]
  rcases Nat.lt_trichotomy j k with hl | he | hg
  case inl     => exact (landed hl hj hk).elim
  case inr.inl => exact he
  case inr.inr => exact (landed hg hk hj).elim

-- The key of a job that begins is neither in the cache nor in flight.
theorem Sound.begin (h : b.Sound x) (hf : b.Faithful x) (hn : b.cache.find? (contentKey path text) = none)
    (hl : b.inFlight.lookup (contentKey path text) = none) (cs : List Caller) :
    Sound x { b with
      callers  := cs
      cache    := (b.cache.get (contentKey path text)).2
      jobs     := b.jobs ++ [{ key := contentKey path text, path, text }]
      inFlight := (contentKey path text, b.jobs.length) :: b.inFlight } where
  kept := by
    refine List.forall_mem_append.mpr ⟨?_, by simp⟩
    simpa using h.kept
  flying := by
    intro key j
    rw [List.mem_cons, h.flying, List.map_append, List.getElem?_append]
    by_cases hj : j < b.jobs.length
    case pos => simp [hj, Nat.ne_of_lt hj]
    case neg =>
      by_cases he : j = b.jobs.length
      case pos => simp [he, Job.flight, eq_comm (a := key)]
      case neg =>
        have hd : j - b.jobs.length ≠ 0 := by omega
        simp [hj, he, hd]
  again := by
    refine List.pairwise_append.mpr ⟨h.again, by simp, fun a ha new hnew hk => ?_⟩
    have hk : a.key = contentKey path text := by rw [hk, List.mem_singleton.mp hnew]
    -- One that has not landed would be in flight, and one whose entry is kept would be found in the cache.
    have ha' : a.landed := by
      apply Decidable.byContradiction
      intro ha'
      have ⟨j, hj⟩ := List.getElem?_of_mem ha
      have hm := (h.flying a.key j).mpr (by simp [hj, Job.flight, ha'])
      have hk := List.lookup_eq_none_iff.mp hl _ hm
      simp_all
    refine ⟨ha', fun hs => ?_⟩
    have hs := h.kept a ha ((hf a ha).landed ha') hs
    simp [hk, hn] at hs
  told := by simpa [Job.told] using h.told

theorem pairwise_set {α : Type} {R : α → α → Prop} {l : List α} {a a' : α} (h : l.Pairwise R)
    (ha : l[j]? = some a) (hl : ∀ c, R a c → R a' c) (hr : ∀ c, R c a → R c a') :
    (l.set j a').Pairwise R := by
  have ⟨hj, ha⟩ := List.getElem?_eq_some_iff.mp ha
  refine List.pairwise_iff_getElem.mpr fun m n hm hn hmn => ?_
  have hr' := List.pairwise_iff_getElem.mp h m n (by simpa using hm) (by simpa using hn) hmn
  simp only [List.getElem_set]
  split
  case isTrue he =>
    subst he
    rw [if_neg (Nat.ne_of_lt hmn)]
    exact hl _ (ha ▸ hr')
  case isFalse =>
    split
    case isTrue he =>
      subst he
      exact hr _ (ha ▸ hr')
    case isFalse => exact hr'

-- What was empty before is added to the rest.
theorem flatMap_set_perm {α β : Type} {f : α → List β} {l : List α} {a a' : α} (ha : l[j]? = some a)
    (hf : f a = []) : (l.flatMap f ++ f a').Perm ((l.set j a').flatMap f) := by
  induction l generalizing j
  case nil => simp at ha
  case cons c l hi =>
    cases j
    case zero =>
      cases Option.some.inj ha
      simpa [hf] using List.perm_append_comm
    case succ j => simpa using (hi ha).append_left (f c)

-- The job has not told anything yet, and tells all it has to tell.
theorem Sound.run (h : b.Sound x) (hj : b.jobs[j]? = some job) (ho : job.outcome = none) :
    (b.runJob x j job).Sound x where
  kept := by
    have hk (k : String) : ((b.runJob x j job).cache.find? k).isSome ↔
        k = job.key ∧ (Extractor.kept? (job.result x)).isSome ∨ (b.cache.find? k).isSome := by
      rw [cache_runJob, Extractor.find?_keepOutcome]
      split <;> simp_all
    rw [jobs_runJob]
    refine forall_mem_set (fun a ha ho hs => (hk _).mpr (.inr (h.kept a ha ho hs))) fun _ hs => ?_
    exact (hk _).mpr (.inl ⟨rfl, (show job.Settles x from hs).isSome_kept?⟩)
  flying := by
    intro key k
    rw [jobs_runJob, map_set hj]
    · exact h.flying key k
    · rfl
  again := pairwise_set h.again hj (fun c hr => hr) (fun c hr => hr)
  told := by
    have hn : job.told x = [] := by simp [Job.told, ho]
    rw [jobs_runJob, events_runJob, List.filter_append, Extractor.filter_outcome]
    refine .trans ?_ (flatMap_set_perm hj hn)
    exact h.told.append_right _

-- A key is free again, for no other job has it that has not landed.
theorem Sound.land (h : b.Sound x) (hj : b.jobs[j]? = some job) (hl : ¬job.landed) :
    (b.landJob j job).Sound x where
  kept := by
    rw [jobs_landJob]
    exact forall_mem_set h.kept (h.kept job (List.mem_of_getElem? hj))
  flying := by
    intro key k
    have hk : (b.jobs.map Job.flight)[j]? = some (job.key, false) := by simp [hj, Job.flight, hl]
    have hm : (key, k) ∈ (b.landJob j job).inFlight ↔
        (b.jobs.map Job.flight)[k]? = some (key, false) ∧ key ≠ job.key := by
      simp [landJob, h.flying]
    rw [hm, jobs_landJob, List.map_set, List.getElem?_set]
    by_cases he : j = k
    case pos =>
      subst he
      simpa [hk, Job.flight] using Eq.symm
    case neg =>
      rw [if_neg he, and_iff_left_iff_imp]
      rintro hk' rfl
      exact he (h.eq_of_flying hk hk')
  again := pairwise_set h.again hj (fun c hr hk => ⟨rfl, (hr hk).right⟩) (fun c hr => hr)
  told := by
    rw [jobs_landJob, List.flatMap_def, map_set hj, ← List.flatMap_def]
    · exact h.told
    · rfl

theorem Sound.step (h : b.Sound x) (hj : b.Joint) (hf : b.Faithful x) (hs : Step x files b b') :
    b'.Sound x := by
  have cached (key k : String) : (b.cache.get key).2.find? k = b.cache.find? k := Cache.find?_get ..
  have silent : b.events = b.events ++ [] := (List.append_nil _).symm
  cases hs
  case settle hs     => exact h.of_caller rfl rfl (fun _ => rfl) rfl (Extractor.isOfCaller_sight hs)
  case hit           => exact h.of_caller rfl rfl (cached _) rfl Extractor.isOfCaller_successOf
  case join          => exact h.of_caller rfl rfl (cached _) silent (by simp)
  case begin hn _ hl => exact h.begin hf hn hl _
  case work          => exact h.of_caller rfl rfl (cached _) silent (by simp)
  case run hj ho     => exact h.run hj ho
  case land hj _ hl  => exact h.land hj hl
  case receive       => exact h.of_caller rfl rfl (fun _ => rfl) rfl Extractor.isOfCaller_successOfOutcome
  case extract hc    => exact (hj _ (List.mem_of_getElem? hc) _ rfl).elim

theorem sound_runAmid (hc : x.settings.coalesce) (paths : List String) (moves : List (FileTree × Move)) :
    let b := (ofPaths {} paths).runAmid x moves
    b.Joint ∧ b.Faithful x ∧ b.Sound x := by
  refine runAmid_induction (P := fun b => b.Joint ∧ b.Faithful x ∧ b.Sound x) ⟨?_, ?_, ?_⟩ ?_
  · simp [Joint, ofPaths]
  · simp [Faithful, ofPaths]
  · exact ⟨by simp [ofPaths], by simp [ofPaths], by simp [ofPaths], by simp [ofPaths]⟩
  · rintro m _ b b' ⟨hj, hf, h⟩ hs
    exact ⟨hj.step hc hs, hs.faithful hf, h.step hj hf hs⟩

theorem Awaits.caller_set {c : Caller} (h : Awaits x i path j job b) (hc : b.callers[k]? = some c)
    (hw : ∀ j, c.stage ≠ .waiting j) (hf : ∀ r, c.stage ≠ .finished r) (c' : Caller) :
    (b.callers.set k c')[i]? = some ⟨path, .waiting j⟩ ∨
      (b.callers.set k c')[i]? = some ⟨path, .finished (job.resultFor x path)⟩ := by
  have hk : k ≠ i := by
    rintro rfl
    cases h.caller
    case inl he => exact hw _ (congrArg Caller.stage (Option.some.inj (hc.symm.trans he)))
    case inr he => exact hf _ (congrArg Caller.stage (Option.some.inj (hc.symm.trans he)))
  rw [List.getElem?_set_ne hk]
  exact h.caller

theorem Awaits.step (h : Awaits x i path j job b) (hf : b.Faithful x) (hs : Step x files b b') :
    Awaits x i path j job b' where
  work := hs.getElem?_contents h.work
  caller := by
    cases hs
    case run  => exact h.caller
    case land => exact h.caller
    case receive k path' j' job' o hc hj ho =>
      by_cases hk : k = i
      case neg =>
        rw [finishWith, finish, setCaller, List.getElem?_set_ne hk]
        exact h.caller
      case pos =>
        subst hk
        cases h.caller
        case inr he => simp [hc] at he
        case inl he =>
          -- The job that it waits for has its contents all along, so it gets their outcome.
          cases Option.some.inj (hc.symm.trans he)
          have hw : job'.contents = job.contents := by simpa [hj] using h.work
          refine .inr ((List.getElem?_set_self (List.getElem?_eq_some_iff.mp hc).1).trans ?_)
          rw [hf.outcome hj ho, Job.result_of_contents hw]
          rfl
    all_goals exact h.caller_set ‹_› (by simp) (by simp) _

theorem Awaits.resume (h : Awaits x i path j job b) (hf : b.Faithful x) (hr : b.Ran j) (files : FileTree) :
    (b.step x files (.resume i)).callers[i]? = some ⟨path, .finished (job.resultFor x path)⟩ := by
  have ⟨done, hj, hw⟩ : ∃ done, b.jobs[j]? = some done ∧ done.contents = job.contents := by
    simpa using h.work
  have ⟨o, ho⟩ := Option.isSome_iff_exists.mp (hr done hj)
  cases h.caller
  case inr hc => rwa [step_resume hc]
  case inl hc =>
    rw [step_resume_of_waiting hc hj ho, hf.outcome hj ho, Job.result_of_contents hw]
    exact List.getElem?_set_self (List.getElem?_eq_some_iff.mp hc).1

theorem Awaits.runAmid (h : Awaits x i path j job b) (hf : b.Faithful x) (moves : List (FileTree × Move)) :
    Awaits x i path j job (b.runAmid x moves) ∧ (b.runAmid x moves).Faithful x :=
  runAmid_induction (P := fun b => Awaits x i path j job b ∧ b.Faithful x) ⟨h, hf⟩
    fun _ _ _ _ h hs => ⟨h.left.step h.right hs, hs.faithful h.right⟩

theorem Awaits.ends (h : Awaits x i path j job b) (hf : b.Faithful x) (files : FileTree) :
    (b.run x files [.run j, .resume i]).callers[i]? = some ⟨path, .finished (job.resultFor x path)⟩ := by
  have ⟨h, hf⟩ := h.runAmid hf [(files, .run j)]
  exact h.resume hf (ran_of_run x files b j) files

theorem Sound.shared (h : b.Sound x) (hx : x.settings.coalesce)
    (hc : b.callers[i]? = some ⟨path, .starting⟩) (hs : x.sight files path = .contents text)
    (hn : b.cache.find? (contentKey path text) = none)
    (hl : b.inFlight.lookup (contentKey path text) = some j) :
    (b.step x files (.start i)).jobs = b.jobs ∧
      ∃ job, b.jobs[j]? = some job ∧ job.key = contentKey path text ∧
        Awaits x i path j job (b.step x files (.start i)) := by
  have hm := (h.flying (contentKey path text) j).mp (Keyed.mem_of_lookup_eq_some hl)
  simp only [List.getElem?_map, Option.map_eq_some_iff] at hm
  have ⟨job, hj, hk⟩ := hm
  simp only [step_start_of_missed hc hs hn hx, join, hl]
  refine ⟨rfl, job, hj, congrArg Prod.fst hk, by simp [setCaller, hj], .inl ?_⟩
  exact List.getElem?_set_self (List.getElem?_eq_some_iff.mp hc).1

-- After a job whose entry is kept there is no other, and all before it have failed.
theorem Sound.last (h : b.Sound x) (hj : job ∈ b.jobs) (hs : job.Settles x) :
    ∃ failed, b.jobs.filter (·.key = job.key) = failed ++ [job] ∧ ∀ other ∈ failed, ¬other.Settles x := by
  have hm : job ∈ b.jobs.filter (·.key = job.key) := by simp [hj]
  have ⟨failed, next, hl⟩ := List.append_of_mem hm
  have hk : ∀ other ∈ b.jobs.filter (·.key = job.key), other.key = job.key := by simp
  have hp := h.again.filter (·.key = job.key)
  rw [hl] at hp hk
  have ⟨_, hn, hf⟩ := List.pairwise_append.mp hp
  have hn : next = [] := by
    refine List.eq_nil_iff_forall_not_mem.mpr fun other ho => ?_
    have hk := hk other (by simp [ho])
    exact (List.rel_of_pairwise_cons hn ho hk.symm).right hs
  subst hn
  refine ⟨failed, hl, fun other ho => (hf other ho job (by simp) (hk other (by simp [ho]))).right⟩

theorem Sound.alone (h : b.Sound x) (hf : b.Faithful x) (key : String) :
    (b.jobs.filter fun job => job.key = key ∧ job.outcome.isNone).length ≤ 1 := by
  have hp := h.again.filter fun job => decide (job.key = key ∧ job.outcome.isNone)
  have hm : ∀ job ∈ b.jobs.filter fun job => job.key = key ∧ job.outcome.isNone,
      job.key = key ∧ job.outcome = none ∧ job.Faithful x := by
    intro job hj
    have ⟨hj, hk⟩ := List.mem_filter.mp hj
    simpa [hf job hj] using hk
  generalize b.jobs.filter _ = unfinished at hp hm ⊢
  match unfinished with
  | []                  => simp
  | [_]                 => simp
  | first :: next :: _ =>
    have ⟨hk, ho, hf⟩ := hm first (by simp)
    have hn := hm next (by simp)
    have hl := (List.rel_of_pairwise_cons hp (by simp) (hk.trans hn.left.symm)).left
    have hs := hf.landed hl
    simp [ho] at hs

theorem Sound.once (h : b.Sound x) (hj : job ∈ b.jobs)
    (hs : ∀ other ∈ b.jobs, other.key = job.key → other.Settles x) :
    b.jobs.filter (·.key = job.key) = [job] := by
  have ⟨failed, he, hn⟩ := h.last hj (hs job hj rfl)
  have hf : failed = [] := by
    refine List.eq_nil_iff_forall_not_mem.mpr fun other ho => hn other ho ?_
    have ⟨hm, hk⟩ := List.mem_filter.mp (he ▸ List.mem_append_left _ ho)
    exact hs other hm (by simpa using hk)
  rw [he, hf, List.nil_append]

theorem Sound.freed (h : b.Sound x) (hl : ∀ job ∈ b.jobs, job.landed) : b.inFlight = [] := by
  refine List.eq_nil_iff_forall_not_mem.mpr fun ⟨key, j⟩ hm => ?_
  have hj := (h.flying key j).mp hm
  simp only [List.getElem?_map, Option.map_eq_some_iff] at hj
  have ⟨job, hj, hf⟩ := hj
  have hl := hl job (List.mem_of_getElem? hj)
  simp [Job.flight, hl] at hf

theorem singleFlight (hx : x.settings.coalesce) (paths : List String) (moves : List (FileTree × Move)) :
    SingleFlight x ((ofPaths {} paths).runAmid x moves) := by
  have ⟨hj, hf, h⟩ := sound_runAmid hx paths moves
  refine ⟨hj, h.alone hf, fun job => h.once, fun job => h.last, ?shared, h.told, h.freed, ?ended⟩
  case shared =>
    intro files i path text j hc hs hn hl
    have ⟨hj, job, hm, hk, ha⟩ := h.shared hx hc hs hn hl
    refine ⟨hj, job, hm, hk, fun moves => ?_⟩
    have ⟨ha, hf⟩ := ha.runAmid (hf.runAmid [(files, .start i)]) moves
    exact ⟨ha, ha.ends hf files⟩
  case ended =>
    intro moves' later hm hl
    have ⟨_, _, h⟩ := sound_runAmid hx paths (moves ++ moves')
    rw [runAmid_append] at h
    refine h.freed fun job hj => ?_
    have ⟨j, hj⟩ := List.getElem?_of_mem hj
    have hb := (List.getElem?_eq_some_iff.mp hj).1
    have ⟨_, hj', landed⟩ := landed_of_runAmid (x := x) (hl ▸ hb) (hm j (hl ▸ hb))
    exact Option.some.inj (hj.symm.trans hj') ▸ landed

-- The second one of two callers that look at a file of which nothing can be made.
theorem singleFlight_of_failing :
    let files : FileTree := { entries := [(["a.js"], .file Action.tag)] }
    let b := (ofPaths {} ["a.js", "a.js"]).runAmid .failing [(files, .start 0)]
    let b' := b.step .failing files (.start 1)
    b.jobs.length = 1 ∧ b'.jobs = b.jobs ∧
      ∀ moves, ((b'.runAmid .failing moves).run .failing files [.run 0, .resume 1]).callers[1]? =
        some ⟨"a.js", .finished (.ok ⟨"a.js", .parseError, none, false⟩)⟩ := by
  intro files b b'
  have hr : Call.Reads ⟨"a.js", files, {}⟩ "graphql" := reads_tag
  have hs : Extractor.failing.sight files "a.js" = .contents "graphql" :=
    Extractor.sight_eq_contents_iff.mpr ⟨hr, by decide⟩
  have hb : b = join { ofPaths {} ["a.js", "a.js"] with
      cache := (Cache.get {} (contentKey "a.js" "graphql")).2 } 0 "a.js" "graphql" (contentKey "a.js" "graphql") :=
    step_start_of_missed (i := 0) (b := ofPaths {} ["a.js", "a.js"]) rfl hs rfl rfl
  have hc : b.callers[1]? = some ⟨"a.js", .starting⟩ := by rw [hb]; rfl
  have hn : b.cache.find? (contentKey "a.js" "graphql") = none := by rw [hb]; rfl
  have hl : b.inFlight.lookup (contentKey "a.js" "graphql") = some 0 := by rw [hb]; simp [join, ofPaths]
  have h : SingleFlight .failing b := singleFlight rfl ["a.js", "a.js"] [(files, .start 0)]
  obtain ⟨hj, job, hm, _, ha⟩ := h.shared files 1 "a.js" "graphql" 0 hc hs hn hl
  refine ⟨by rw [hb]; rfl, hj, fun moves => (ha moves).right.trans ?_⟩
  rw [hb] at hm
  cases Option.some.inj hm
  rfl

end Batch

end QueryGlean
