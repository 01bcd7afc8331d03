import Mathlib
import QueryGlean.Proofs.Extraction.Batch

namespace QueryGlean

def Caller.remaining (c : Caller) : Nat :=
  match c.stage with
  | .starting   => 4
  | .finished _ => 0
  | _           => 1

def Caller.unstarted (c : Caller) : Nat :=
  match c.stage with
  | .starting => 1
  | _         => 0

def Job.remaining (job : Job) : Nat :=
  (if job.outcome.isSome then 0 else 1) + if job.landed then 0 else 1

namespace Batch

def Complete (b : Batch) : Prop :=
  ∀ c ∈ b.callers, ∃ r, c.stage = .finished r

def remaining (b : Batch) : Nat :=
  (b.callers.map Caller.remaining).sum + (b.jobs.map Job.remaining).sum

structure Attached (b : Batch) : Prop where
  waiting : ∀ c ∈ b.callers, ∀ j, c.stage = .waiting j → j < b.jobs.length
  flying  : ∀ p ∈ b.inFlight, p.2 < b.jobs.length

-- A batch that has not come to its end goes on, and whatever is done leaves less to do.
structure Alive (x : Extractor) (files : FileTree) (b : Batch) : Prop where
  moves : b.Complete ∨ ∃ m, (b.step x files m).remaining < b.remaining
  less  : ∀ m, b.step x files m = b ∨ (b.step x files m).remaining < b.remaining

variable {x : Extractor} {files : FileTree} {b b' : Batch} {i j n : Nat} {m : Move} {c : Caller} {job : Job}

theorem sum_map_set {α : Type} {f : α → Nat} {l : List α} {a c : α} (h : l[i]? = some a) :
    ((l.set i c).map f).sum + f a = (l.map f).sum + f c := by
  induction l generalizing i
  case nil => simp at h
  case cons d l hi =>
    cases i
    case zero =>
      cases Option.some.inj h
      simp
      omega
    case succ i =>
      have hi := hi (i := i) h
      simp only [List.set_cons_succ, List.map_cons, List.sum_cons]
      omega

theorem sum_map_set_lt {α : Type} {f : α → Nat} {l : List α} {a c : α} (h : l[i]? = some a) (hf : f c < f a) :
    ((l.set i c).map f).sum < (l.map f).sum := by
  have hs := sum_map_set (f := f) (c := c) h
  omega

theorem sum_map_set_le {α : Type} {f : α → Nat} {l : List α} {a c : α} (h : l[i]? = some a) (hf : f c ≤ f a) :
    ((l.set i c).map f).sum ≤ (l.map f).sum := by
  have hs := sum_map_set (f := f) (c := c) h
  omega

theorem Step.remaining_lt (h : Step x files b b') : b'.remaining < b.remaining := by
  cases h
  case begin path _ hc _ _ _ _ =>
    have hs := sum_map_set (f := Caller.remaining) (c := ⟨path, .waiting b.jobs.length⟩) hc
    simp only [remaining, List.map_append, List.sum_append, List.map_singleton, List.sum_singleton]
    change _ + 4 = _ + 1 at hs
    change _ + (_ + 2) < _
    omega
  case run hj ho     => exact Nat.add_lt_add_left (sum_map_set_lt hj (by simp [Job.remaining, ho])) _
  case land hj ho hl => exact Nat.add_lt_add_left (sum_map_set_lt hj (by simp [Job.remaining, hl])) _
  all_goals exact Nat.add_lt_add_right (sum_map_set_lt ‹_› (by simp [Caller.remaining])) _

theorem Attached.step (h : b.Attached) (hs : Step x files b b') : b'.Attached := by
  cases hs
  case join path text j _ _ _ _ hl =>
    have hj := h.flying (contentKey path text, j) (Keyed.mem_of_lookup_eq_some hl)
    exact ⟨forall_mem_set h.waiting (by simpa using hj), h.flying⟩
  case begin =>
    have grown (k : Nat) (hk : k < b.jobs.length) (job : Job) : k < (b.jobs ++ [job]).length := by
      simp; omega
    constructor
    case waiting => exact forall_mem_set (fun c hc k hs => grown k (h.waiting c hc k hs) _) (by simp)
    case flying  => exact List.forall_mem_cons.mpr ⟨by simp, fun p hp => grown p.2 (h.flying p hp) _⟩
  case run j job _ _ =>
    have hl : (b.runJob x j job).jobs.length = b.jobs.length := by simp
    exact ⟨fun c hc k hs => hl ▸ h.waiting c hc k hs, fun p hp => hl ▸ h.flying p hp⟩
  case land j job _ _ _ =>
    have hl : (b.landJob j job).jobs.length = b.jobs.length := by simp
    exact ⟨fun c hc k hs => hl ▸ h.waiting c hc k hs, fun p hp => hl ▸ h.flying p (List.mem_filter.mp hp).1⟩
  all_goals exact ⟨forall_mem_set h.waiting (by simp), h.flying⟩

-- A caller that has not come to its end can go on, or the job that it waits for can run.
theorem Attached.exists_step (h : b.Attached) (hc : ¬b.Complete) : ∃ m, Step x files b (b.step x files m) := by
  have ⟨c, hm, hc⟩ : ∃ c ∈ b.callers, ∀ r, c.stage ≠ .finished r := by simpa [Complete] using hc
  have ⟨i, hi⟩ := List.getElem?_of_mem hm
  obtain ⟨path, stage⟩ := c
  cases stage
  case finished r => exact (hc r rfl).elim
  case starting   => exact ⟨.start i, step_start hi ▸ step_startCaller hi⟩
  case extracting => exact ⟨.resume i, step_resume hi ▸ .extract hi⟩
  case waiting j =>
    have ⟨job, hj⟩ : ∃ job, b.jobs[j]? = some job := ⟨_, List.getElem?_eq_getElem (h.waiting _ hm j rfl)⟩
    cases ho : job.outcome
    case none   => exact ⟨.run j, step_run hj ho ▸ .run hj ho⟩
    case some o => exact ⟨.resume i, step_resume_of_waiting hi hj ho ▸ .receive hi hj ho⟩

theorem Attached.alive (h : b.Attached) : Alive x files b where
  less m := (step_cases x files b m).imp_right Step.remaining_lt
  moves := by
    by_cases hc : b.Complete
    case pos => exact .inl hc
    case neg => exact .inr ((h.exists_step hc).imp fun _ hs => hs.remaining_lt)

def Started (i : Nat) (b : Batch) : Prop :=
  ∀ c, b.callers[i]? = some c → c.stage ≠ .starting

def Finished (i : Nat) (b : Batch) : Prop :=
  ∀ c, b.callers[i]? = some c → ∃ r, c.stage = .finished r

def Ran (j : Nat) (b : Batch) : Prop :=
  ∀ job, b.jobs[j]? = some job → job.outcome.isSome

structure Fits (n : Nat) (b : Batch) : Prop where
  attached : b.Attached
  callers  : b.callers.length = n
  jobs     : b.jobs.length + (b.callers.map Caller.unstarted).sum ≤ n

structure Ready (n : Nat) (b : Batch) : Prop extends Fits n b where
  started : ∀ i, b.Started i
  ran     : ∀ j, b.Ran j

theorem Started.step (h : b.Started i) (hs : Step x files b b') : b'.Started i := by
  rcases hs.callers with he | ⟨_, _, _, _, _, hn, he⟩
  case inl => rwa [Started, he]
  case inr =>
    rw [Started, he]
    exact forall_getElem?_set h hn

theorem Finished.step (h : b.Finished i) (hs : Step x files b b') : b'.Finished i := by
  rcases hs.callers with he | ⟨k, c, stage, hc, hn, _, he⟩
  case inl => rwa [Finished, he]
  case inr =>
    have hk : k ≠ i := by
      rintro rfl
      have ⟨r, hr⟩ := h c hc
      exact hn r hr
    rwa [Finished, he, List.getElem?_set_ne hk]

-- A job that has run stays so, and no other takes its place if none can begin.
theorem Ran.step (h : b.Ran j) (hn : x.settings.coalesce → ∀ i, b.Started i) (hs : Step x files b b') :
    b'.Ran j := by
  cases hs
  case begin hc _ _ hx _ => exact (hn hx _ _ hc rfl).elim
  case run               => exact forall_getElem?_set h rfl
  case land ho _         => exact forall_getElem?_set h ho
  all_goals exact h

theorem Fits.step (h : b.Fits n) (hs : Step x files b b') : b'.Fits n where
  attached := h.attached.step hs
  callers  := by simpa [h.callers] using congrArg List.length hs.paths
  jobs := by
    refine Nat.le_trans ?_ h.jobs
    cases hs
    case begin path _ hc _ _ _ _ =>
      have hs := sum_map_set (f := Caller.unstarted) (c := ⟨path, .waiting b.jobs.length⟩) hc
      change _ + 1 = _ + 0 at hs
      simp only [List.length_append, List.length_singleton]
      omega
    case run  => simp [runJob]
    case land => simp [landJob]
    all_goals exact Nat.add_le_add_left (sum_map_set_le ‹_› (by simp [Caller.unstarted])) _

theorem Ready.step (h : b.Ready n) (hs : Step x files b b') : b'.Ready n where
  toFits  := h.toFits.step hs
  started := fun i => (h.started i).step hs
  ran     := fun j => (h.ran j).step (fun _ => h.started) hs

theorem fits_ofPaths (cache : Cache) (paths : List String) : (ofPaths cache paths).Fits paths.length := by
  have hs : ((ofPaths cache paths).callers.map Caller.unstarted).sum = paths.length := by
    simp [ofPaths, Function.comp_def, Caller.unstarted, List.map_const']
  exact ⟨⟨by simp [ofPaths], by simp [ofPaths]⟩, by simp [ofPaths], by rw [hs]; simp [ofPaths]⟩

theorem Fits.complete (h : b.Fits n) (hf : ∀ i < n, b.Finished i) : b.Complete := by
  intro c hc
  have ⟨i, hi⟩ := List.getElem?_of_mem hc
  exact hf i (h.callers ▸ (List.getElem?_eq_some_iff.mp hi).1) c hi

theorem Fits.started (h : b.Fits n) (hs : ∀ i < n, b.Started i) (i : Nat) : b.Started i := by
  by_cases hi : i < n
  case pos => exact hs i hi
  case neg => simp [Started, List.getElem?_eq_none (h.callers ▸ Nat.le_of_not_lt hi)]

theorem Fits.ran (h : b.Fits n) (hr : ∀ j < n, b.Ran j) (j : Nat) : b.Ran j := by
  by_cases hj : j < n
  case pos => exact hr j hj
  case neg =>
    have hl := h.jobs
    simp [Ran, List.getElem?_eq_none (show b.jobs.length ≤ j by omega)]

section Schedule

variable (x : Extractor) (files : FileTree)

theorem callers_startCaller (b : Batch) (i : Nat) (path : String) :
    ∃ stage ≠ .starting, (b.startCaller x files i path).callers = b.callers.set i ⟨path, stage⟩ := by
  unfold startCaller
  split
  case h_1 => exact ⟨_, by simp, rfl⟩
  case h_2 =>
    dsimp only
    split
    case h_1 => exact ⟨_, by simp, rfl⟩
    case h_2 =>
      split
      case isFalse => exact ⟨_, by simp, rfl⟩
      case isTrue =>
        unfold join
        split <;> exact ⟨_, by simp, rfl⟩

theorem started_of_start (b : Batch) (i : Nat) : (b.step x files (.start i)).Started i := by
  simp only [Batch.step]
  split
  case h_2 hn => exact fun c hc hs => hn c.path (hs ▸ hc)
  case h_1 path hc =>
    obtain ⟨stage, hs, he⟩ := callers_startCaller x files b i path
    simp [Started, he, (List.getElem?_eq_some_iff.mp hc).1, hs]

theorem ran_of_run (b : Batch) (j : Nat) : (b.step x files (.run j)).Ran j := by
  simp only [Batch.step]
  split
  case h_2 hn => simp [Ran, hn]
  case h_1 job hj =>
    split
    case isTrue     => simp [Ran, (List.getElem?_eq_some_iff.mp hj).1]
    case isFalse ho => simpa [Ran, hj, Option.isSome_iff_ne_none] using ho

theorem finished_of_resume (h : b.Attached) (hr : ∀ j, b.Ran j) (hs : b.Started i) :
    (b.step x files (.resume i)).Finished i := by
  simp only [Batch.step]
  split
  case h_2 hn => simp [Finished, hn]
  case h_1 c hc =>
    have hl := (List.getElem?_eq_some_iff.mp hc).1
    obtain ⟨path, stage⟩ := c
    cases stage
    case starting   => exact (hs _ hc rfl).elim
    case finished r => exact fun c hc' => ⟨r, congrArg Caller.stage (Option.some.inj (hc'.symm.trans hc))⟩
    case extracting => simp [Finished, resumeCaller, finishWith, finish, setCaller, hl]
    case waiting j =>
      have hj := h.waiting _ (List.mem_of_getElem? hc) j rfl
      obtain ⟨o, ho⟩ := Option.isSome_iff_exists.mp (hr j _ (List.getElem?_eq_getElem hj))
      simp [Finished, resumeCaller, hj, ho, finishWith, finish, setCaller, hl]

theorem run_each {P : Batch → Prop} {Q : Nat → Batch → Prop} {f : Nat → List Move} (h : P b)
    (hp : ∀ b b', P b → Step x files b b' → P b')
    (hq : ∀ i b b', P b → Q i b → Step x files b b' → Q i b')
    (hs : ∀ i b, P b → Q i (b.run x files (f i))) (n : Nat) :
    let b' := b.run x files ((List.range n).flatMap f)
    P b' ∧ ∀ i < n, Q i b' := by
  induction n
  case zero => exact ⟨h, by simp⟩
  case succ n hi =>
    rw [List.range_succ, List.flatMap_append, run_append, List.flatMap_singleton]
    refine ⟨run_induction x files hi.left hp _, fun i hl => ?_⟩
    cases Nat.lt_succ_iff_lt_or_eq.mp hl
    case inr he => exact he ▸ hs n _ hi.left
    -- What the earlier numbers have brought about is still so after the last one.
    case inl hl =>
      have both := run_induction x files (P := fun b => P b ∧ Q i b) ⟨hi.left, hi.right i hl⟩
        (fun b b' h hs => ⟨hp b b' h.left hs, hq i b b' h.left h.right hs⟩) (f n)
      exact both.right

theorem started_of_run (h : b.Fits n) :
    let b' := b.run x files ((List.range n).map .start)
    b'.Fits n ∧ ∀ i, b'.Started i := by
  rw [List.map_eq_flatMap]
  have ⟨hf, hs⟩ := run_each x files (P := Fits n) (Q := Started) (f := fun i => [.start i]) h
    (fun _ _ h hs => h.step hs) (fun _ _ _ _ h hs => h.step hs) (fun i b _ => started_of_start x files b i) n
  exact ⟨hf, hf.started hs⟩

theorem ready_of_run (h : b.Fits n) (hs : ∀ i, b.Started i) :
    (b.run x files ((List.range n).map .run)).Ready n := by
  rw [List.map_eq_flatMap]
  have ⟨⟨hf, hs⟩, hr⟩ := run_each x files (P := fun b => b.Fits n ∧ ∀ i, b.Started i) (Q := Ran)
    (f := fun j => [.run j]) ⟨h, hs⟩ (fun _ _ h hs => ⟨h.left.step hs, fun i => (h.right i).step hs⟩)
    (fun _ _ _ h hr hs => hr.step (fun _ => h.right) hs) (fun j b _ => ran_of_run x files b j) n
  exact ⟨hf, hs, hf.ran hr⟩

theorem Ready.complete (h : b.Ready n) : (b.run x files ((List.range n).map .resume)).Complete := by
  rw [List.map_eq_flatMap]
  have ⟨hr, hf⟩ := run_each x files (P := Ready n) (Q := Finished) (f := fun i => [.resume i]) h
    (fun _ _ h hs => h.step hs) (fun _ _ _ _ h hs => h.step hs)
    (fun i b h => finished_of_resume x files h.attached h.ran (h.started i)) n
  exact hr.toFits.complete hf

-- With nothing shared there are no jobs to wait for.
theorem complete_of_separate (hx : ¬x.settings.coalesce) (h : b.Fits n) (hr : ∀ j, b.Ran j) :
    (b.run x files ((List.range n).flatMap fun i => [.start i, .resume i])).Complete := by
  have step (b b' : Batch) (h : b.Fits n ∧ ∀ j, b.Ran j) (hs : Step x files b b') :
      b'.Fits n ∧ ∀ j, b'.Ran j :=
    ⟨h.left.step hs, fun j => (h.right j).step (fun hc => (hx hc).elim) hs⟩
  have finish (i : Nat) (b : Batch) (h : b.Fits n ∧ ∀ j, b.Ran j) :
      (b.run x files [.start i, .resume i]).Finished i := by
    have h := run_induction x files h step [.start i]
    exact finished_of_resume x files h.left.attached h.right (started_of_start x files b i)
  have ⟨hf, hc⟩ := run_each x files (P := fun b => b.Fits n ∧ ∀ j, b.Ran j) (Q := Finished)
    (f := fun i => [.start i, .resume i]) ⟨h, hr⟩ step (fun _ _ _ _ h hs => h.step hs) finish n
  exact hf.left.complete hc

theorem complete_of_schedule (cache : Cache) (paths : List String) :
    ((ofPaths cache paths).run x files (schedule x paths.length)).Complete := by
  have h := fits_ofPaths cache paths
  unfold schedule
  split
  case isTrue =>
    simp only [run_append]
    have ⟨h, hs⟩ := started_of_run x files h
    have h := ready_of_run x files h hs
    have h := run_induction x files h (fun _ _ h hs => h.step hs) ((List.range paths.length).map .land)
    exact h.complete x files
  case isFalse hx => exact complete_of_separate x files hx h (by simp [Ran, ofPaths])

end Schedule

end Batch

end QueryGlean
