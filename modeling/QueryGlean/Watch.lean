import QueryGlean.Discovery
import QueryGlean.Report

namespace QueryGlean

inductive Change.Kind
  | added
  | modified
  | deleted
deriving DecidableEq, Repr, Inhabited

structure Change where
  kind : Change.Kind
  path : String
deriving DecidableEq, Repr, Inhabited

-- Deleted files are not handed on, for there is nothing left to read in them.
def Change.watched (root : Path) (changes : List Change) : List Path :=
  ((changes.filter (·.kind ≠ .deleted)).map fun c => Path.ofString c.path).filter (·.isWatched root)
    |>.eraseDups

def Change.between (root : Path) (place : List String) (old new : FileTree) : List Change :=
  let change (kind : Kind) (parts : List String) : Change := ⟨kind, toString (root.join parts)⟩
  let isFile (f : List String × FileTree.Node) := f.2.isFile
  let before := (old.below place).filter isFile
  let after := (new.below place).filter isFile
  after.filterMap (fun (parts, node) =>
      match before.lookup parts with
      | none => some (change .added parts)
      | some earlier => if earlier = node then none else some (change .modified parts)) ++
    before.filterMap fun (parts, _) =>
      if (after.lookup parts).isSome then none else some (change .deleted parts)

abbrev Reaction (σ : Type) := σ → List Path → σ × Bool

namespace Watch

def notice (level : LogLevel) (text : String) : Event :=
  .noted ⟨level, .watching, text⟩

-- Hands on one batch. A failure of the reaction is noted and changes nothing else.
def deliver (root : Path) (react : Reaction σ) (s : σ) (changes : List Change) : σ × List Event :=
  match Change.watched root changes with
  | [] => (s, [])
  | paths =>
    let (s, failed) := react s paths
    (s, notice .info s!"Detected changes in {paths.length} file(s)" ::
      if failed then [notice .error "Error re-extracting changed files"] else [])

def deliverAll (root : Path) (react : Reaction σ) (s : σ) : List (List Change) → σ × List Event
  | [] => (s, [])
  | changes :: rest =>
    let (s, events) := deliver root react s changes
    let (s, later) := deliverAll root react s rest
    (s, events ++ later)

end Watch

inductive Script.Ending
  | open'
  | closed
  | failing (error : String)
deriving DecidableEq, Repr, Inhabited

structure Script where
  batches : List (List Change)
  ending : Script.Ending
deriving Repr, Inhabited

inductive Watcher.Stage
  | scheduled
  | idle
  | ended
  | failed (error : String)
deriving DecidableEq, Repr, Inhabited

def Watcher.Stage.isRunning : Stage → Bool
  | scheduled | idle => true
  | ended | failed _ => false

structure Watcher where
  root : Path
  stage : Option Watcher.Stage := none
deriving Repr, Inhabited

namespace Watcher

structure Step (σ : Type) where
  watcher : Watcher
  state : σ
  events : List Event := []
  error : Option String := none

variable (w : Watcher) (script : Script) (react : Reaction σ) (s : σ)

def isHeld : Bool :=
  w.stage.isSome

-- Begins a watch, unless there is one. It does not run before something waits.
def start : Step σ :=
  if w.isHeld then { watcher := w, state := s }
  else {
    watcher := { w with stage := some .scheduled }
    state := s
    events := [Watch.notice .info s!"Watching {w.root} for query changes"] }

def Stage.after : Script.Ending → Stage
  | .open' => idle
  | .closed => ended
  | .failing e => failed e

def drain : Step σ :=
  if w.stage.any Stage.isRunning then
    let (s, events) := Watch.deliverAll w.root react s script.batches
    { watcher := { w with stage := some (Stage.after script.ending) }, state := s, events }
  else { watcher := w, state := s }

def wait : Step σ :=
  let r := drain w script react s
  match r.watcher.stage with
  | some (.failed e) => { r with error := some e }
  | _ => r

-- Ends the watch. One that failed is kept, and its failure is the failure of the step.
def stop : Step σ :=
  match w.stage with
  | none => { watcher := w, state := s }
  -- The failure comes before the watch is let go.
  | some (.failed e) => { watcher := w, state := s, error := some e }
  | some _ => {
      watcher := { w with stage := none }
      state := s
      events := [Watch.notice .info s!"Stopped watching {w.root}"] }

end Watcher

end QueryGlean
