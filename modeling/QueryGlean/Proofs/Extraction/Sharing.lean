import Mathlib
import QueryGlean.Proofs.Extraction.Isolation

namespace QueryGlean

structure Shared (ι : Type) where
  batches : ι → Batch
  cache   : Cache

structure Turn (ι : Type) where
  owner : ι
  files : FileTree
  move  : Move

abbrev Request (ι : Type) := ι × String × String

namespace Shared

variable {ι : Type} [DecidableEq ι] (xs : ι → Extractor)

def ofPaths (paths : ι → List String) : Shared ι :=
  ⟨fun k => .ofPaths {} (paths k), {}⟩

def batch (s : Shared ι) (k : ι) : Batch :=
  { s.batches k with cache := s.cache }

def step (s : Shared ι) (t : Turn ι) : Shared ι :=
  let b := (s.batch t.owner).step (xs t.owner) t.files t.move
  ⟨Function.update s.batches t.owner b, b.cache⟩

def run (s : Shared ι) (ts : List (Turn ι)) : Shared ι :=
  ts.foldl (step xs) s

def request? (s : Shared ι) (t : Turn ι) : Option (Request ι) :=
  match t.move with
  | .start i =>
    match (s.batches t.owner).callers[i]? with
    | some ⟨path, .starting⟩ => (Call.request? (xs t.owner) ⟨path, t.files, s.cache⟩).map (t.owner, ·)
    | _ => none
  | _ => none

def requests (s : Shared ι) : List (Turn ι) → List (Request ι)
  | []      => []
  | t :: ts => (s.request? xs t).toList ++ requests (s.step xs t) ts

end Shared

-- What a call is answered, if these requests were made before: what its extractor gives alone, or from the cache
-- what an extractor gives alone that asked for the same contents.
inductive Answered {ι : Type} (xs : ι → Extractor) (asked : List (Request ι)) (k : ι) (files : FileTree)
    (path : String) : Except Breakdown ExtractionResult → Prop
  | alone : Answered xs asked k files path ((xs k).extract files {} path).result
  | shared {a l text}
      (cached : a.cached) (request : (l, path, text) ∈ asked)
      (reads : files.readText (Path.ofString path) = .ok text)
      (result : (Except.ok a).map ExtractionResult.fresh = ((xs l).extract files {} path).result) :
      Answered xs asked k files path (.ok a)

def Cache.From {ι : Type} (xs : ι → Extractor) (asked : List (Request ι)) (c : Cache) : Prop :=
  ∀ key e, c.find? key = some e → ∃ k path text, (k, path, text) ∈ asked ∧
    contentKey path text = key ∧ (xs k).Settles path text e

namespace Batch

-- How a batch is about contents that it asked for:
-- 1. so are all jobs, and all callers that do the work themselves
-- 2. a key in flight is that of its job
-- 3. jobs come to what they are for, and those that are waited for are there
structure Asked (x : Extractor) (P : String × String → Prop) (b : Batch) : Prop where
  jobs       : ∀ job ∈ b.jobs, P job.contents
  extracting : ∀ c ∈ b.callers, ∀ text, c.stage = .extracting text → P (c.path, text)
  flying     : ∀ q ∈ b.inFlight, ∃ p, (b.jobs.map Job.contents)[q.2]? = some p ∧ contentKey p.1 p.2 = q.1
  faithful   : b.Faithful x
  attached   : b.Attached

variable {x : Extractor} {files files' : FileTree} {b b' : Batch} {P Q : String × String → Prop} {i j : Nat}
variable {path text : String} {c : Caller} {m : Move}

theorem Asked.withCache (h : b.Asked x P) (cache : Cache) : { b with cache }.Asked x P :=
  ⟨h.jobs, h.extracting, h.flying, h.faithful, h.attached.waiting, h.attached.flying⟩

theorem Asked.mono (h : b.Asked x P) (hq : ∀ p, P p → Q p) : b.Asked x Q where
  jobs job hj            := hq _ (h.jobs job hj)
  extracting c hc t hs   := hq _ (h.extracting c hc t hs)
  flying                 := h.flying
  faithful               := h.faithful
  attached               := h.attached

theorem Asked.worked (h : b.Asked x P)
    (hw : ⟨path, .extracting text⟩ ∈ b.callers ∨ (path, text) ∈ b.jobs.map Job.contents) : P (path, text) := by
  rcases hw with hc | hj
  case inl => exact h.extracting _ hc text rfl
  case inr =>
    obtain ⟨job, hm, hp⟩ := List.mem_map.mp hj
    exact hp ▸ h.jobs job hm

theorem callers_resumeCaller (b : Batch) (i : Nat) (c : Caller) :
    (b.resumeCaller x i c).callers = b.callers ∨
      c.stage ≠ .starting ∧ ∃ c', (b.resumeCaller x i c).callers = b.callers.set i c' := by
  unfold resumeCaller
  split
  case h_1 hs =>
    split
    case h_1 => exact .inr ⟨by simp [hs], _, rfl⟩
    case h_2 => exact .inl rfl
  case h_2 hs => exact .inr ⟨by simp [hs], _, rfl⟩
  case h_3    => exact .inl rfl

-- A caller that has not started stays so until its own start.
theorem starting_of_ne (h : b.callers[i]? = some ⟨path, .starting⟩) (hm : m ≠ .start i) :
    (b.step x files m).callers[i]? = some ⟨path, .starting⟩ := by
  cases m <;> simp only [step]
  case start j =>
    have hj : j ≠ i := fun hj => hm (hj ▸ rfl)
    split
    case h_2 => exact h
    case h_1 p _ =>
      obtain ⟨_, _, he⟩ := callers_startCaller x files b j p
      rw [he, List.getElem?_set_ne hj, h]
  case run j  => split <;> [split; skip] <;> exact h
  case land j => split <;> [split; skip] <;> exact h
  case resume j =>
    split
    case h_2 => exact h
    case h_1 c hc =>
      rcases callers_resumeCaller (x := x) b j c with he | ⟨hs, _, he⟩
      case inl => rw [he, h]
      case inr =>
        have hj : j ≠ i := fun hj => hs (by cases Option.some.inj ((hj ▸ hc).symm.trans h); rfl)
        rw [he, List.getElem?_set_ne hj, h]

-- What a batch asks for, it asks for when a caller starts.
theorem Asked.of_step (h : b.Asked x P) (hs : Step x files b b')
    (hn : ∀ (i : Nat) path text, b.callers[i]? = some ⟨path, .starting⟩ → b'.callers[i]? ≠ some ⟨path, .starting⟩ →
      x.sight files path = .contents text → P (path, text)) : b'.Asked x P where
  attached := h.attached.step hs
  faithful := hs.faithful h.faithful
  jobs     := by
    cases hs
    case begin i path text hc hs _ _ _ =>
      refine List.forall_mem_append.mpr ⟨h.jobs, List.forall_mem_singleton.mpr ?_⟩
      exact hn i path text hc (by simp [(List.getElem?_eq_some_iff.mp hc).1]) hs
    case run hj _ => exact forall_mem_set h.jobs (h.jobs _ (List.mem_of_getElem? hj) :)
    case land hj _ _ => exact forall_mem_set h.jobs (h.jobs _ (List.mem_of_getElem? hj) :)
    all_goals exact h.jobs
  extracting := by
    cases hs
    case work i path text hc hs _ _ =>
      refine forall_mem_set h.extracting fun t ht => ?_
      cases ht
      exact hn i path text hc (by simp [(List.getElem?_eq_some_iff.mp hc).1]) hs
    case run  => exact h.extracting
    case land => exact h.extracting
    all_goals exact forall_mem_set h.extracting (by simp)
  flying   := hs.flying h.flying

theorem Asked.step (h : b.Asked x P)
    (hn : ∀ i path text, m = .start i → b.callers[i]? = some ⟨path, .starting⟩ →
      x.sight files path = .contents text → P (path, text)) : (b.step x files m).Asked x P := by
  rcases step_cases x files b m with he | hs
  case inl => rwa [he]
  case inr =>
    refine h.of_step hs fun i path text hc hc' ht => hn i path text ?_ hc ht
    exact by_contra fun hm => hc' (starting_of_ne hc hm)

theorem asked_ofPaths (cache : Cache) (paths : List String) : (ofPaths cache paths).Asked x P where
  jobs       := by simp [ofPaths]
  extracting := by simp [ofPaths]
  flying     := by simp [ofPaths]
  faithful   := by simp [ofPaths, Faithful]
  attached   := (fits_ofPaths cache paths).attached

end Batch

namespace Cache.From

variable {ι : Type} {xs : ι → Extractor} {A A' : List (Request ι)} {cache cache' : Cache} {k : ι}
variable {path text : String} {files : FileTree} {b b' : Batch}

theorem mono (h : cache.From xs A) (ha : A ⊆ A') : cache.From xs A' :=
  fun key e he => have ⟨k, path, text, hq, hk⟩ := h key e he; ⟨k, path, text, ha hq, hk⟩

theorem congr (h : cache.From xs A) (he : ∀ key, cache'.find? key = cache.find? key) : cache'.From xs A :=
  fun key e hf => h key e (he key ▸ hf)

theorem of_step (h : b.cache.From xs A) (ha : b.Asked (xs k) fun p => (k, p) ∈ A)
    (hs : Batch.Step (xs k) files b b') : b'.cache.From xs A := by
  intro key e he
  rcases hs.found ha.faithful he with he | ⟨path, text, hk, hs, _, hw⟩
  case inl => exact h key e he
  case inr => exact ⟨k, path, text, ha.worked hw, hk, hs⟩

end Cache.From

def Caller.Follows (x : Extractor) (files : FileTree) (jobs : List Job)
    (Good : Except Breakdown ExtractionResult → Prop) (c : Caller) : Prop :=
  match c.stage with
  | .starting        => False
  | .waiting j       => ∃ text, x.sight files c.path = .contents text ∧
    (jobs.map Job.contents)[j]? = some (c.path, text)
  | .extracting text => x.sight files c.path = .contents text
  | .finished r      => Good r

def Batch.Follows (x : Extractor) (files : FileTree) (path : String)
    (Good : Except Breakdown ExtractionResult → Prop) (i : Nat) (b : Batch) : Prop :=
  ∃ c, b.callers[i]? = some c ∧ c.path = path ∧ c.Follows x files b.jobs Good

section

variable {x : Extractor} {files files' : FileTree} {b b' : Batch} {path : String} {i j : Nat} {c c' : Caller}
variable {Good : Except Breakdown ExtractionResult → Prop}

theorem Caller.Follows.step (h : c.Follows x files b.jobs Good) (hs : Batch.Step x files' b b') :
    c.Follows x files b'.jobs Good := by
  unfold Caller.Follows at h ⊢
  split
  case h_1 hc => rwa [hc] at h
  case h_2 hc =>
    rw [hc] at h
    have ⟨text, ht, hj⟩ := h
    exact ⟨text, ht, hs.getElem?_contents hj⟩
  case h_3 hc => rwa [hc] at h
  case h_4 hc => rwa [hc] at h

namespace Batch

-- If a caller goes on, it is this one or another one.
theorem Follows.of_set (h : b.Follows x files path Good i) (hs : Step x files' b b')
    (hc : b.callers[j]? = some c) (he : b'.callers = b.callers.set j c')
    (hn : c.path = path → c.Follows x files b.jobs Good → c'.path = path ∧ c'.Follows x files b'.jobs Good) :
    b'.Follows x files path Good i := by
  obtain ⟨d, hd, hp, hf⟩ := h
  by_cases hj : j = i
  case neg => exact ⟨d, by rw [he, List.getElem?_set_ne hj, hd], hp, hf.step hs⟩
  case pos =>
    cases Option.some.inj ((hj ▸ hc).symm.trans hd)
    exact ⟨c', by rw [he, hj, List.getElem?_set_self (List.getElem?_eq_some_iff.mp hd).1], hn hp hf⟩

theorem Follows.step (h : b.Follows x files path Good i) (hb : b.Faithful x)
    (hg : Good (x.extract files {} path).result) (hs : Step x files' b b') : b'.Follows x files path Good i := by
  have hs' := hs
  cases hs
  case settle hc _      => exact h.of_set hs' hc rfl fun _ hf => hf.elim
  case hit hc _ _       => exact h.of_set hs' hc rfl fun _ hf => hf.elim
  case join hc _ _ _ _  => exact h.of_set hs' hc rfl fun _ hf => hf.elim
  case begin hc _ _ _ _ => exact h.of_set hs' hc rfl fun _ hf => hf.elim
  case work hc _ _ _    => exact h.of_set hs' hc rfl fun _ hf => hf.elim
  case run =>
    obtain ⟨c, hc, hp, hf⟩ := h
    exact ⟨c, hc, hp, hf.step hs'⟩
  case land =>
    obtain ⟨c, hc, hp, hf⟩ := h
    exact ⟨c, hc, hp, hf.step hs'⟩
  case receive hc hj ho =>
    refine h.of_set hs' hc rfl fun hp hf => ⟨hp, ?_⟩
    obtain ⟨text, ht, hw⟩ := hf
    rw [List.getElem?_map, hj] at hw
    rw [hb.outcome hj ho, Job.result_of_contents (Option.some.inj hw)]
    subst hp
    rwa [Extractor.result_of_miss ht rfl] at hg
  case extract hc =>
    refine h.of_set hs' hc rfl fun hp hf => ⟨hp, ?_⟩
    subst hp
    rwa [Extractor.result_of_miss hf rfl] at hg

end Batch

end

namespace Shared

variable {ι : Type} [DecidableEq ι] {xs : ι → Extractor} {A : List (Request ι)} {s : Shared ι} {t : Turn ι}
variable {ts ts' : List (Turn ι)} {k : ι} {i : Nat} {files : FileTree} {path text : String}

-- All that is kept and all that is under way is for contents that were asked for, and who asked for a text found
-- its tag in it.
structure Sound (xs : ι → Extractor) (A : List (Request ι)) (s : Shared ι) : Prop where
  cache   : s.cache.From xs A
  batches : ∀ k, (s.batches k).Asked (xs k) fun p => (k, p) ∈ A
  tagged  : ∀ q ∈ A, occursIn (xs q.1).settings.tagName.toList q.2.2.toList

@[simp]
theorem batches_step_self (xs : ι → Extractor) (s : Shared ι) (t : Turn ι) :
    (s.step xs t).batches t.owner = (s.batch t.owner).step (xs t.owner) t.files t.move :=
  Function.update_self ..

theorem batches_step_of_ne (h : k ≠ t.owner) : (s.step xs t).batches k = s.batches k :=
  Function.update_of_ne h ..

section

omit [DecidableEq ι]

theorem request?_of_start (hc : (s.batches k).callers[i]? = some ⟨path, .starting⟩)
    (ht : (xs k).sight files path = .contents text) :
    s.request? xs ⟨k, files, .start i⟩ = some (k, path, text) := by
  have hr : Call.request? (xs k) ⟨path, files, s.cache⟩ = some (path, text) :=
    Call.request?_eq_some_iff.mpr ⟨ht, rfl⟩
  simp [request?, hc, hr]

theorem tagged_of_request? {q : Request ι} (h : s.request? xs t = some q) :
    occursIn (xs q.1).settings.tagName.toList q.2.2.toList := by
  unfold request? at h
  split at h
  case h_2 => cases h
  case h_1 =>
    split at h
    case h_2 => cases h
    case h_1 =>
      obtain ⟨p, hp, rfl⟩ := Option.map_eq_some_iff.mp h
      exact (Extractor.sight_eq_contents_iff.mp (Call.request?_eq_some_iff.mp hp).left).right

-- What was asked for, and has the key of a new request, is what is requested.
theorem contents_eq_of_key {p q : String × String} {l : ι} (hk : KeysApart ((A ++ [(k, p)]).map Prod.snd))
    (hq : (l, q) ∈ A) (he : contentKey q.1 q.2 = contentKey p.1 p.2) : q = p :=
  hk q (List.mem_map.mpr ⟨(l, q), List.mem_append_left _ hq, rfl⟩) p (by simp) he

theorem Sound.answered_of_hit {e : CacheEntry} (h : s.Sound xs A)
    (hk : KeysApart ((A ++ [(k, path, text)]).map Prod.snd)) (hs : (xs k).sight files path = .contents text)
    (he : s.cache.find? (contentKey path text) = some e) :
    Answered xs A k files path (.ok (Extractor.answer path e true)) := by
  obtain ⟨l, p, t, hq, hpk, hp⟩ := h.cache _ e he
  cases contents_eq_of_key hk hq hpk
  have ⟨hr, _⟩ := Extractor.sight_eq_contents_iff.mp hs
  -- The extractor that the entry is from sees the same contents, for its own tag is in them too.
  have hl : (xs l).sight files path = .contents text :=
    Extractor.sight_eq_contents_iff.mpr ⟨hr, h.tagged _ hq⟩
  exact .shared Extractor.answer_cached hq hr (Extractor.fresh_of_hit hl hp)

theorem Sound.contents_of_flying {j : Nat} (h : s.Sound xs A)
    (hk : KeysApart ((A ++ [(k, path, text)]).map Prod.snd))
    (hj : (s.batches k).inFlight.lookup (contentKey path text) = some j) :
    ((s.batches k).jobs.map Job.contents)[j]? = some (path, text) := by
  obtain ⟨p, hp, hpk⟩ := (h.batches k).flying (_, j) (Keyed.mem_of_lookup_eq_some hj)
  obtain ⟨job, hm, rfl⟩ := List.mem_map.mp (List.mem_of_getElem? hp)
  rw [hp, contents_eq_of_key hk ((h.batches k).jobs job hm) hpk]

theorem sound_ofPaths (xs : ι → Extractor) (paths : ι → List String) : (ofPaths paths).Sound xs [] where
  cache   := fun key e he => by simp [ofPaths, Cache.find?] at he
  batches := fun k => Batch.asked_ofPaths {} (paths k)
  tagged  := fun q hq => by cases hq

end

theorem Sound.step (h : s.Sound xs A) (t : Turn ι) :
    (s.step xs t).Sound xs (A ++ (s.request? xs t).toList) := by
  have grown : A ⊆ A ++ (s.request? xs t).toList := List.subset_append_left _ _
  have ha := ((h.batches t.owner).mono fun p hp => grown hp).withCache s.cache
  constructor
  case cache =>
    have hc := h.cache.mono grown
    rcases Batch.step_cases (xs t.owner) t.files (s.batch t.owner) t.move with he | hs
    case inl => exact hc.congr fun key => by rw [Shared.step, he]; rfl
    case inr => exact Cache.From.of_step (b := s.batch t.owner) hc ha hs
  case batches =>
    intro k
    by_cases hk : k = t.owner
    case neg =>
      rw [batches_step_of_ne hk]
      exact (h.batches k).mono fun p hp => grown hp
    case pos =>
      rw [hk, batches_step_self]
      -- What the batch asks for in this step is the request of the turn.
      refine ha.step fun i path text hm hc ht => ?_
      obtain ⟨k, files, m⟩ := t
      cases hm
      simp [request?_of_start hc ht]
  case tagged =>
    intro q hq
    cases List.mem_append.mp hq
    case inl hq => exact h.tagged q hq
    case inr hq => exact tagged_of_request? (Option.mem_toList.mp hq)

theorem Sound.run (h : s.Sound xs A) (ts : List (Turn ι)) : (s.run xs ts).Sound xs (A ++ s.requests xs ts) := by
  induction ts generalizing s A
  case nil => simpa [Shared.run, requests] using h
  case cons t ts hi => simpa [Shared.run, requests] using hi (h.step t)

theorem requests_append (xs : ι → Extractor) (s : Shared ι) (ts ts' : List (Turn ι)) :
    s.requests xs (ts ++ ts') = s.requests xs ts ++ (s.run xs ts).requests xs ts' := by
  induction ts generalizing s
  case nil => rfl
  case cons t ts hi => rw [List.cons_append, requests, requests, hi, List.append_assoc]; rfl

theorem run_append (xs : ι → Extractor) (s : Shared ι) (ts ts' : List (Turn ι)) :
    s.run xs (ts ++ ts') = (s.run xs ts).run xs ts' :=
  List.foldl_append

-- A call starts with what its files settle, with an entry that was asked for, or with its own contents.
theorem Sound.follows (h : s.Sound xs A) (hc : (s.batches k).callers[i]? = some ⟨path, .starting⟩)
    (hk : KeysApart ((A ++ (s.request? xs ⟨k, files, .start i⟩).toList).map Prod.snd)) :
    ((s.step xs ⟨k, files, .start i⟩).batches k).Follows (xs k) files path (Answered xs A k files path) i := by
  have hl : i < (s.batches k).callers.length := (List.getElem?_eq_some_iff.mp hc).1
  have follows {stage : Caller.Stage} {b : Batch} (he : b.callers = (s.batches k).callers.set i ⟨path, stage⟩)
      (hf : Caller.Follows (xs k) files b.jobs (Answered xs A k files path) ⟨path, stage⟩) :
      b.Follows (xs k) files path (Answered xs A k files path) i :=
    ⟨_, by rw [he, List.getElem?_set_self hl], rfl, hf⟩
  rw [batches_step_self xs s ⟨k, files, .start i⟩, Batch.step_start (b := s.batch k) hc]
  unfold Batch.startCaller
  split
  case h_1 r es hs =>
    have ha : Answered xs A k files path ((xs k).extract files {} path).result := .alone
    rw [Extractor.extract_of_settled hs] at ha
    exact follows rfl ha
  case h_2 text hs =>
    replace hk : KeysApart ((A ++ [(k, path, text)]).map Prod.snd) := by rwa [request?_of_start hc hs] at hk
    dsimp only
    rw [Cache.get_eq]
    cases he : (s.batch k).cache.find? (contentKey path text)
    case some => exact follows rfl (h.answered_of_hit hk hs he)
    case none =>
      dsimp only
      split
      case isFalse => exact follows rfl hs
      case isTrue =>
        unfold Batch.join
        split
        case h_1 j hj => exact follows rfl ⟨text, hs, h.contents_of_flying hk hj⟩
        case h_2      => exact follows rfl ⟨text, hs, by simp [Job.contents, Shared.batch]⟩

theorem Sound.follows_run {Good : Except Breakdown ExtractionResult → Prop} (h : s.Sound xs A)
    (hf : (s.batches k).Follows (xs k) files path Good i) (hg : Good ((xs k).extract files {} path).result)
    (ts : List (Turn ι)) : ((s.run xs ts).batches k).Follows (xs k) files path Good i := by
  induction ts generalizing s A
  case nil => exact hf
  case cons t ts hi =>
    refine hi (h.step t) ?_
    by_cases hk : k = t.owner
    case neg => rwa [batches_step_of_ne hk]
    case pos =>
      subst hk
      rw [batches_step_self]
      rcases Batch.step_cases (xs t.owner) t.files (s.batch t.owner) t.move with he | hs
      case inl => rwa [he]
      case inr => exact Batch.Follows.step (b := s.batch t.owner) hf (h.batches t.owner).faithful hg hs

-- Whatever happens before and after its start, a call is answered for the file as it is at its start. It is kept
-- from its own answer only by an extractor that gives another one for the same contents.
theorem answered_of_run {paths : ι → List String} {before : List (Turn ι)}
    (hk : KeysApart (((ofPaths paths).requests xs (before ++ [⟨k, files, .start i⟩])).map Prod.snd))
    (hc : (((ofPaths paths).run xs before).batches k).callers[i]? = some ⟨path, .starting⟩) (after : List (Turn ι)) :
    let asked := (ofPaths paths).requests xs before
    let s := (ofPaths paths).run xs (before ++ ⟨k, files, .start i⟩ :: after)
    (∀ files', (s.batch k).Alive (xs k) files') ∧
      ∃ c, (s.batches k).callers[i]? = some c ∧ c.path = path ∧ ∀ r, c.stage = .finished r →
        Answered xs asked k files path r ∧
          ((∀ l text, (l, path, text) ∈ asked → files.readText (Path.ofString path) = .ok text →
              ((xs l).extract files {} path).result = ((xs k).extract files {} path).result) →
            r.map ExtractionResult.fresh = ((xs k).extract files {} path).result) := by
  intro asked s
  have hb := (sound_ofPaths xs paths).run before
  have hs := (sound_ofPaths xs paths).run (before ++ ⟨k, files, .start i⟩ :: after)
  refine ⟨fun files' => ((hs.batches k).withCache s.cache).attached.alive, ?_⟩
  rw [requests_append] at hk
  have hf := hb.follows hc (by simpa [requests] using hk)
  obtain ⟨c, hi, hp, hf⟩ := (hb.step ⟨k, files, .start i⟩).follows_run hf .alone after
  have he : s = ((ofPaths paths).run xs before).run xs (⟨k, files, .start i⟩ :: after) := run_append ..
  refine ⟨c, he ▸ hi, hp, fun r hr => ?_⟩
  rw [Caller.Follows, hr] at hf
  refine ⟨hf, fun agree => ?_⟩
  cases hf
  case alone => exact Extractor.fresh_alone
  case shared hq ht hl => exact hl.trans (agree _ _ hq ht)

theorem find?_of_first {paths : ι → List String} {e : CacheEntry}
    (hc : ((ofPaths paths).batches k).callers[0]? = some ⟨path, .starting⟩) (hx : (xs k).settings.coalesce)
    (hs : (xs k).sight files path = .contents text) (he : (xs k).Settles path text e) :
    ((ofPaths paths).run xs [⟨k, files, .start 0⟩, ⟨k, files, .run 0⟩]).cache.find? (contentKey path text) =
      some e := by
  have hb : ((ofPaths paths).batch k).callers[0]? = some ⟨path, .starting⟩ := hc
  have started := Batch.step_start_of_missed hb hs rfl hx
  simp only [run, List.foldl_cons, List.foldl_nil, step]
  rw [started]
  simp [batch, ofPaths, Batch.ofPaths, Batch.step, Batch.join, Extractor.find?_keepOutcome, Job.result, he.outcome,
    Extractor.kept?, he.status]

theorem callers_of_hit {e : CacheEntry} (hc : (s.batches k).callers[i]? = some ⟨path, .starting⟩)
    (hs : (xs k).sight files path = .contents text) (he : s.cache.find? (contentKey path text) = some e) :
    ((s.step xs ⟨k, files, .start i⟩).batches k).callers =
      (s.batches k).callers.set i ⟨path, .finished (.ok (Extractor.answer path e true))⟩ := by
  have hb : (s.batch k).callers[i]? = some ⟨path, .starting⟩ := hc
  rw [batches_step_self xs s ⟨k, files, .start i⟩, Batch.step_start hb, Batch.startCaller, hs]
  dsimp only
  rw [Cache.get_eq, show (s.batch k).cache.find? (contentKey path text) = some e from he]
  rfl

-- Two extractors with settings of their own that make nothing of any text. The second one reads another file first.
theorem answered_of_failing :
    let files : FileTree := {
      entries := [(["a.js"], .file Action.tag), (["b.js"], .file (Action.tag ++ Action.tag))] }
    let xs : Bool → Extractor := fun k =>
      { Extractor.failing with settings := if k then {} else { moduleName := "other" } }
    let s : Shared Bool := ofPaths fun k => if k then ["a.js"] else ["b.js", "a.js"]
    let before : List (Turn Bool) := [⟨true, files, .start 0⟩, ⟨true, files, .run 0⟩, ⟨false, files, .start 0⟩]
    let asked := [(true, "a.js", "graphql"), (false, "b.js", "graphqlgraphql")]
    s.requests xs before = asked ∧
      KeysApart ((s.requests xs (before ++ [⟨false, files, .start 1⟩])).map Prod.snd) ∧
      ∀ after, ∃ c, ((s.run xs (before ++ ⟨false, files, .start 1⟩ :: after)).batches false).callers[1]? = some c ∧
        ∀ r, c.stage = .finished r → r.map ExtractionResult.fresh = .ok ⟨"a.js", .parseError, none, false⟩ := by
  intro files xs s before asked
  have ra : Call.Reads ⟨"a.js", files, {}⟩ "graphql" := by
    refine reads_of_resolve ["a.js"] Action.tag ?_ ?_ ?_ ?_ <;> decide +kernel
  have rb : Call.Reads ⟨"b.js", files, {}⟩ "graphqlgraphql" := by
    refine reads_of_resolve ["b.js"] (Action.tag ++ Action.tag) ?_ ?_ ?_ ?_ <;> decide +kernel
  have ha (k : Bool) : (xs k).sight files "a.js" = .contents "graphql" :=
    Extractor.sight_eq_contents_iff.mpr ⟨ra, by cases k <;> decide⟩
  have hb (k : Bool) : (xs k).sight files "b.js" = .contents "graphqlgraphql" :=
    Extractor.sight_eq_contents_iff.mpr ⟨rb, by cases k <;> decide⟩
  have first : s.request? xs ⟨true, files, .start 0⟩ = some (true, "a.js", "graphql") :=
    request?_of_start rfl (ha true)
  have second : (s.run xs [⟨true, files, .start 0⟩, ⟨true, files, .run 0⟩]).request? xs ⟨false, files, .start 0⟩ =
      some (false, "b.js", "graphqlgraphql") :=
    request?_of_start rfl (hb false)
  have hq : s.requests xs before = asked := by
    change s.requests xs ([⟨true, files, .start 0⟩, ⟨true, files, .run 0⟩] ++ [⟨false, files, .start 0⟩]) = _
    rw [requests_append, requests, requests, first, requests, requests, second]
    rfl
  have hc : ((s.run xs before).batches false).callers[1]? = some ⟨"a.js", .starting⟩ := by
    let s' := s.run xs [⟨true, files, .start 0⟩, ⟨true, files, .run 0⟩]
    have waits : (s'.batch false).callers[1]? = some ⟨"a.js", .starting⟩ := rfl
    change ((s'.step xs ⟨false, files, .start 0⟩).batches false).callers[1]? = _
    rw [batches_step_self xs s' ⟨false, files, .start 0⟩]
    exact Batch.starting_of_ne waits (by simp)
  have hk : KeysApart ((s.requests xs (before ++ [⟨false, files, .start 1⟩])).map Prod.snd) := by
    rw [requests_append, hq, requests, request?_of_start hc (ha false)]
    decide +kernel
  -- Settings make no difference to extractors that fail on every text.
  have own (k : Bool) : ((xs k).extract files {} "a.js").result = .ok ⟨"a.js", .parseError, none, false⟩ :=
    (Extractor.result_of_miss (ha k) rfl).trans rfl
  refine ⟨hq, hk, fun after => ?_⟩
  obtain ⟨_, c, hi, _, h⟩ := answered_of_run hk hc after
  exact ⟨c, hi, fun r hr => ((h r hr).right fun l _ _ _ => (own l).trans (own false).symm).trans (own false)⟩

end Shared

def Extractor.careless : Extractor where
  settings      := {}
  preprocessors := [fun _ _ => .ok (.list [.integer 1])]

namespace Shared

variable {x y : Extractor} {files : FileTree} {path text : String} {e : CacheEntry}

def resultsAfter (x y : Extractor) (files : FileTree) (path : String) :
    List (String × Except Breakdown ExtractionResult) :=
  let s := (ofPaths fun _ => [path]).run (fun k => if k then x else y)
    [⟨true, files, .start 0⟩, ⟨true, files, .run 0⟩, ⟨false, files, .start 0⟩]
  (s.batches false).results

theorem resultsAfter_of_settles (hx : x.settings.coalesce) (hs : x.sight files path = .contents text)
    (hs' : y.sight files path = .contents text) (he : x.Settles path text e) :
    resultsAfter x y files path = [(path, .ok (Extractor.answer path e true))] := by
  let xs : Bool → Extractor := fun k => if k then x else y
  let s : Shared Bool := (ofPaths fun _ => [path]).run xs [⟨true, files, .start 0⟩, ⟨true, files, .run 0⟩]
  have hf : s.cache.find? (contentKey path text) = some e := find?_of_first (k := true) rfl hx hs he
  have hc : (s.batches false).callers = [⟨path, .starting⟩] := rfl
  have answered : ((s.step xs ⟨false, files, .start 0⟩).batches false).callers = _ :=
    callers_of_hit (by rw [hc]; rfl) hs' hf
  change ((s.step xs ⟨false, files, .start 0⟩).batches false).results = _
  rw [Batch.results, answered, hc]
  rfl

-- An extractor that makes nothing of a file leaves its outcome to one that breaks down on it, and one that finds a
-- query leaves it to one that looks for another tag.
theorem status_of_other :
    let tagged : FileTree := { entries := [(["a.js"], .file Action.tag)] }
    let queried : FileTree := { entries := [(["a.js"], .file pageQuery.toUTF8.data.toList)] }
    let query : Extractor := { settings := {} }
    let other : Extractor := { settings := { tagName := "q" } }
    (resultsAfter .failing .careless tagged "a.js" = [("a.js", .ok ⟨"a.js", .parseError, none, true⟩)] ∧
      (Extractor.careless.extract tagged {} "a.js").result = .error (.notText "int")) ∧
    (parseIn .javascript (.ofString pageQuery) = some .pageQuery →
      ∃ d, resultsAfter query other queried "a.js" = [("a.js", .ok ⟨"a.js", .extracted, some d, true⟩)] ∧
        (other.extract queried {} "a.js").result = .ok ⟨"a.js", .noFragments, none, false⟩) := by
  intro tagged queried query other
  constructor
  case left =>
    have hr : Call.Reads ⟨"a.js", tagged, {}⟩ "graphql" := reads_tag
    have hs : Extractor.failing.sight tagged "a.js" = .contents "graphql" :=
      Extractor.sight_eq_contents_iff.mpr ⟨hr, by decide⟩
    have hs' : Extractor.careless.sight tagged "a.js" = .contents "graphql" :=
      Extractor.sight_eq_contents_iff.mpr ⟨hr, by decide⟩
    have he : Extractor.failing.Settles "a.js" "graphql" ⟨[], .parseError⟩ := ⟨rfl, by decide⟩
    exact ⟨resultsAfter_of_settles rfl hs hs' he, (Extractor.result_of_miss hs' rfl).trans rfl⟩
  case right =>
    intro ht
    have hr : Call.Reads ⟨"a.js", queried, {}⟩ pageQuery := reads_pageQuery (by decide +kernel)
    have hs : query.sight queried "a.js" = .contents pageQuery :=
      Extractor.sight_eq_contents_iff.mpr ⟨hr, by decide +kernel⟩
    have hs' : other.sight queried "a.js" = .contents pageQuery :=
      Extractor.sight_eq_contents_iff.mpr ⟨hr, by decide +kernel⟩
    obtain ⟨f, ho, _⟩ := Extractor.outcome_pageQuery (x := query) ht rfl rfl
    have hf : (Parsed.fragments ⟨.javascript, .ofString pageQuery, .pageQuery⟩ other.settings "a.js").1 = .ok [] := by
      cbv
    have ho' : (other.outcome "a.js" pageQuery).1 = .ok ⟨[], .noFragments⟩ :=
      Extractor.outcome_of_fragments (Reading.source_pageQuery ht rfl) hf
    refine ⟨_, resultsAfter_of_settles rfl hs hs' ⟨ho, by simp⟩, ?_⟩
    rw [Extractor.result_of_miss hs' rfl, ho']
    rfl

end Shared

end QueryGlean
