import QueryGlean.Extraction.Basic

namespace QueryGlean

inductive Caller.Stage
  | starting
  | waiting (job : Nat)
  | extracting (text : String)
  | finished (result : Except Breakdown ExtractionResult)

structure Caller where
  path : String
  stage : Caller.Stage

-- An extraction that callers may share. Its outcome is there once it has run, and once it has landed
-- no further caller joins it.
structure Job where
  key : String
  path : String
  text : String
  outcome : Option (Except Breakdown CacheEntry) := none
  landed : Bool := false

structure Batch where
  callers : List Caller
  jobs : List Job := []
  inFlight : List (String × Nat) := []
  cache : Cache
  events : List Event := []

-- What happens next: a caller goes on with what it has read, a job with what its preprocessors offer,
-- the end of a job is taken note of, or a caller goes on with its outcome.
inductive Move
  | start (caller : Nat)
  | run (job : Nat)
  | land (job : Nat)
  | resume (caller : Nat)
deriving DecidableEq, Repr

namespace Batch

variable (x : Extractor) (files : FileTree)

def ofPaths (cache : Cache) (paths : List String) : Batch where
  callers := paths.map fun p => ⟨p, .starting⟩
  cache

def setCaller (b : Batch) (i : Nat) (path : String) (stage : Caller.Stage) : Batch :=
  { b with callers := b.callers.set i ⟨path, stage⟩ }

def finish (b : Batch) (i : Nat) (path : String) (result : Except Breakdown ExtractionResult)
    (events : List Event) : Batch :=
  { b.setCaller i path (.finished result) with events := b.events ++ events }

def join (b : Batch) (i : Nat) (path text key : String) : Batch :=
  match b.inFlight.lookup key with
  | some job => b.setCaller i path (.waiting job)
  | none =>
    let job := b.jobs.length
    { b.setCaller i path (.waiting job) with
      jobs := b.jobs ++ [{ key, path, text }]
      inFlight := (key, job) :: b.inFlight }

def startCaller (b : Batch) (i : Nat) (path : String) : Batch :=
  match x.sight files path with
  | .settled result events => b.finish i path result events
  | .contents text =>
    let key := contentKey path text
    let (found, cache) := b.cache.get key
    let b := { b with cache }
    match found with
    -- The success of an entry is told anew each time it is found.
    | some e => b.finish i path (.ok (Extractor.answer path e true)) (Extractor.successOf path e)
    | none =>
      if x.settings.coalesce then b.join i path text key
      else b.setCaller i path (.extracting text)

-- Preprocessors may keep a job waiting, but it tells and keeps nothing before they are done, and all
-- the rest at once.
def runJob (b : Batch) (j : Nat) (job : Job) : Batch :=
  let (outcome, events) := x.outcome job.path job.text
  { b with
    jobs := b.jobs.set j { job with outcome := some outcome }
    cache := Extractor.keepOutcome b.cache job.key outcome
    events := b.events ++ events }

def landJob (b : Batch) (j : Nat) (job : Job) : Batch :=
  { b with
    jobs := b.jobs.set j { job with landed := true }
    inFlight := b.inFlight.filter (·.1 ≠ job.key) }

def finishWith (b : Batch) (i : Nat) (path : String) (outcome : Except Breakdown CacheEntry) : Batch :=
  b.finish i path (outcome.map (Extractor.answer path · false)) (Extractor.successOfOutcome path outcome)

def resumeCaller (b : Batch) (i : Nat) (c : Caller) : Batch :=
  match c.stage with
  | .waiting j =>
    match b.jobs[j]?.bind Job.outcome with
    | some outcome => b.finishWith i c.path outcome
    | none => b
  -- Without sharing, the caller does the work itself.
  | .extracting text =>
    let (outcome, events) := x.outcome c.path text
    { b with
      cache := Extractor.keepOutcome b.cache (contentKey c.path text) outcome
      events := b.events ++ events }.finishWith i c.path outcome
  | _ => b

-- Any order of moves is possible, and moves that are not enabled change nothing.
def step (b : Batch) : Move → Batch
  | .start i =>
    match b.callers[i]? with
    | some ⟨path, .starting⟩ => b.startCaller x files i path
    | _ => b
  | .run j =>
    match b.jobs[j]? with
    | some job => if job.outcome.isNone then b.runJob x j job else b
    | none => b
  | .land j =>
    match b.jobs[j]? with
    | some job => if job.outcome.isSome && !job.landed then b.landJob j job else b
    | none => b
  | .resume i =>
    match b.callers[i]? with
    | some c => b.resumeCaller x i c
    | none => b

def run (b : Batch) (moves : List Move) : Batch :=
  moves.foldl (step x files) b

-- The usual order: with shared jobs all callers start before the first job runs, and else each
-- caller comes to its end before the next one starts.
def schedule (n : Nat) : List Move :=
  let each (f : Nat → Move) : List Move := (List.range n).map f
  if x.settings.coalesce then each .start ++ each .run ++ each .land ++ each .resume
  else (List.range n).flatMap fun i => [.start i, .resume i]

def results (b : Batch) : List (String × Except Breakdown ExtractionResult) :=
  b.callers.filterMap fun c =>
    match c.stage with
    | .finished r => some (c.path, r)
    | _ => none

def breakdowns (results : List (String × Except Breakdown ExtractionResult)) : List Event :=
  results.filterMap fun (path, r) =>
    match r with
    | .error e => some (.noted ⟨.error, .files, s!"Extraction of {path} failed: {e.message}"⟩)
    | .ok _ => none

def documents (results : List (String × Except Breakdown ExtractionResult)) : Keyed Document :=
  results.foldl (fun docs (path, r) =>
    match r with
    | .ok ⟨_, _, some d, _⟩ => Keyed.insert path d docs
    | _ => docs) []

end Batch

namespace Extractor

variable (x : Extractor)

def gather (files : FileTree) (cache : Cache) (paths : List String) : Batch :=
  (Batch.ofPaths cache paths).run x files (Batch.schedule x paths.length)

def documents (files : FileTree) (cache : Cache) (paths : List String) :
    Keyed Document × Cache × List Event :=
  let b := x.gather files cache paths
  (Batch.documents b.results, b.cache, b.events ++ Batch.breakdowns b.results)

end Extractor

end QueryGlean
