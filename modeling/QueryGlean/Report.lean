import QueryGlean.Diagnostic

namespace QueryGlean

inductive FailureReason
  | read
  | parse
  | query
deriving DecidableEq, Repr, Inhabited

namespace FailureReason

def name : FailureReason → String
  | read => "read"
  | parse => "parse"
  | query => "query"

def all : List FailureReason := [read, parse, query]

def ofName? (s : String) : Option FailureReason :=
  all.find? (·.name = s)

theorem ofName?_name (r : FailureReason) : ofName? r.name = some r := by
  cases r <;> decide

end FailureReason

inductive LogLevel
  | debug
  | info
  | warning
  | error
deriving DecidableEq, Repr, Inhabited

inductive LogTopic
  | diagnostics
  | sources
  | files
  | watching
deriving DecidableEq, Repr, Inhabited

structure LogLine where
  level : LogLevel
  topic : LogTopic
  text : String
deriving DecidableEq, Repr, Inhabited

inductive Event
  | reported (diagnostic : Diagnostic)
  | succeeded (path : String)
  | failed (path : String) (reason : FailureReason) (error : Option String)
  | noted (line : LogLine)
deriving DecidableEq, Repr, Inhabited

namespace Event

def logLine? : Event → Option LogLine
  | reported d => some ⟨if d.severity = .error then .error else .warning, .diagnostics, d.message⟩
  | succeeded _ => none
  | failed path reason (some error) =>
    some ⟨.debug, .diagnostics, s!"Extraction failed for {path} ({reason.name}): {error}"⟩
  | failed _ _ none => none
  | noted line => some line

def diagnostic? : Event → Option Diagnostic
  | reported d => some d
  | _ => none

def succeeded? : Event → Option String
  | succeeded path => some path
  | _ => none

def failed? : Event → Option (String × FailureReason)
  | failed path reason _ => some (path, reason)
  | _ => none

end Event

structure Collector where
  diagnostics : List Diagnostic := []
  succeeded : List String := []
  failed : List (String × FailureReason) := []
  stale : List String := []
deriving Repr, Inhabited

namespace Collector

def record (c : Collector) : Event → Collector
  | .reported d => { c with diagnostics := c.diagnostics ++ [d] }
  | .succeeded path =>
    { c with succeeded := c.succeeded ++ [path], stale := c.stale.filter (· ≠ path) }
  | .failed path reason _ =>
    { c with
      failed := c.failed ++ [(path, reason)]
      stale := if c.stale.contains path then c.stale else c.stale ++ [path] }
  | .noted _ => c

def recordAll (c : Collector) (es : List Event) : Collector :=
  es.foldl record c

-- A file is stale from a failure of its extraction to the next success.
def isStale (c : Collector) (path : String) : Bool :=
  c.stale.contains path

def warnings (c : Collector) : List Diagnostic :=
  c.diagnostics.filter (·.severity = .warning)

def errors (c : Collector) : List Diagnostic :=
  c.diagnostics.filter (·.severity = .error)

def forFile (c : Collector) (path : String) : List Diagnostic :=
  c.diagnostics.filter (·.filePath = path)

def clear (_ : Collector) : Collector :=
  {}

theorem recordAll_append (c : Collector) (es fs : List Event) :
    c.recordAll (es ++ fs) = (c.recordAll es).recordAll fs := by
  simp [recordAll]

theorem diagnostics_recordAll (c : Collector) (es : List Event) :
    (c.recordAll es).diagnostics = c.diagnostics ++ es.filterMap Event.diagnostic? := by
  induction es generalizing c with
  | nil => simp [recordAll]
  | cons e es ih =>
    simp only [recordAll, List.foldl_cons] at ih ⊢
    cases e <;> simp [ih, record, Event.diagnostic?, List.filterMap_cons]

theorem isStale_record (c : Collector) (e : Event) (path : String) :
    (c.record e).isStale path = match e with
      | .succeeded p => c.isStale path && path != p
      | .failed p _ _ => c.isStale path || path == p
      | _ => c.isStale path := by
  cases e with
  | reported | noted => rfl
  | succeeded p => by_cases h : path = p <;> simp [record, isStale, h]
  | failed p r e => by_cases hp : p ∈ c.stale <;> simp [record, isStale, hp] <;> grind

end Collector

end QueryGlean
