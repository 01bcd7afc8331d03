import Mathlib
import QueryGlean.Watch

namespace QueryGlean

-- The batch saves a file of the directory `root`, which may be deleted in the same batch too.
def Change.Saves (root : Path) (changes : List Change) (p : Path) : Prop :=
  p.isWatched root ∧ ∃ c ∈ changes, c.kind ≠ .deleted ∧ Path.ofString c.path = p

-- The calls that batches lead to: there is one for each batch that saves something, with each saved file once.
inductive Watch.Calls (root : Path) : List (List Change) → List (List Path) → Prop
  | nil : Calls root [] []
  | quiet {changes : List Change} {batches : List (List Change)} {calls : List (List Path)}
      (nothing : ∀ p, ¬ Change.Saves root changes p) (later : Calls root batches calls) :
      Calls root (changes :: batches) calls
  | call {changes : List Change} {batches : List (List Change)} {paths : List Path} {calls : List (List Path)}
      (something : paths ≠ []) (once : paths.Nodup) (saved : ∀ p, p ∈ paths ↔ Change.Saves root changes p)
      (later : Calls root batches calls) : Calls root (changes :: batches) (paths :: calls)

def Reaction.recorded {σ : Type} (react : Reaction σ) : Reaction (σ × List (List Path)) := fun s paths =>
  let (next, failed) := react s.1 paths
  ((next, s.2 ++ [paths]), failed)

variable {root p : Path} {changes : List Change} {batches : List (List Change)} {calls : List (List Path)}
variable {σ : Type} {react : Reaction σ} {s : σ}

theorem nodup_eraseDups {α : Type} [BEq α] [LawfulBEq α] (l : List α) : l.eraseDups.Nodup := by
  induction h : l.length using Nat.strong_induction_on generalizing l
  case h n hi =>
    cases l
    case nil => simp
    case cons a l =>
      rw [List.eraseDups_cons, List.nodup_cons]
      constructor
      case left  => simp
      case right =>
        refine hi _ ?_ _ rfl
        exact h ▸ Nat.lt_succ_of_le (List.length_filter_le _ _)

namespace Change

theorem mem_watched : p ∈ watched root changes ↔ Saves root changes p := by
  simp only [watched, Saves, List.mem_eraseDups, List.mem_filter, List.mem_map, ne_eq, decide_eq_true_eq]
  tauto

theorem nodup_watched : (watched root changes).Nodup :=
  nodup_eraseDups _

theorem watched_eq_nil_iff : watched root changes = [] ↔ ∀ p, ¬ Saves root changes p := by
  simp [List.eq_nil_iff_forall_not_mem, mem_watched]

end Change

namespace Watch

def handed (root : Path) (batches : List (List Change)) : List (List Path) :=
  (batches.map (Change.watched root)).filter (· ≠ [])

def runCalls (react : Reaction σ) (s : σ) (calls : List (List Path)) : σ :=
  calls.foldl (fun s paths => (react s paths).1) s

theorem calls_handed (root : Path) (batches : List (List Change)) : Calls root batches (handed root batches) := by
  induction batches
  case nil => exact .nil
  case cons changes batches hi =>
    by_cases h : Change.watched root changes = []
    case pos =>
      rw [show handed root (changes :: batches) = handed root batches by simp [handed, h]]
      exact .quiet (Change.watched_eq_nil_iff.mp h) hi
    case neg =>
      rw [show handed root (changes :: batches) = Change.watched root changes :: handed root batches by
        simp [handed, h]]
      exact .call h Change.nodup_watched (fun _ => Change.mem_watched) hi

-- A file that is saved twice and deleted too is handed on once, and a batch of deletions is not handed on.
example :
    handed (.ofString "/s") [[⟨.added, "/s/a.js"⟩, ⟨.modified, "/s//a.js"⟩, ⟨.deleted, "/s/a.js"⟩],
      [⟨.deleted, "/s/b.js"⟩]] = [[.ofString "/s/a.js"]] := by
  decide +kernel

theorem fst_deliver :
    (deliver root react s changes).1 =
      if Change.watched root changes = [] then s else (react s (Change.watched root changes)).1 := by
  unfold deliver
  split
  case h_1 h => simp [h]
  case h_2 h => rw [if_neg h]

theorem fst_deliverAll : (deliverAll root react s batches).1 = runCalls react s (handed root batches) := by
  induction batches generalizing s
  case nil => rfl
  case cons changes batches hi =>
    rw [show (deliverAll root react s (changes :: batches)).1 =
      (deliverAll root react (deliver root react s changes).1 batches).1 from rfl, hi, fst_deliver]
    split
    case isTrue h  => simp [handed, h]
    case isFalse h => simp [handed, runCalls, h]

theorem runCalls_recorded (log : List (List Path)) :
    runCalls react.recorded (s, log) calls = (runCalls react s calls, log ++ calls) := by
  induction calls generalizing s log
  case nil => simp [runCalls]
  case cons paths calls hi =>
    rw [show runCalls react.recorded (s, log) (paths :: calls) =
      runCalls react.recorded ((react s paths).1, log ++ [paths]) calls from rfl, hi]
    simp [runCalls]

end Watch

-- Once a watch is begun, the batches alone settle what a reaction is called with, and the end of the batches
-- settles where the watch stands behind them.
theorem Watcher.calls_exact (root : Path) (script : Script) :
    ∃ calls, Watch.Calls root script.batches calls ∧ ∀ {σ : Type} (react : Reaction σ) (s : σ),
      let begun := (Watcher.start { root } (s, ([] : List (List Path)))).watcher
      let run := begun.drain script react.recorded (s, [])
      run.state = (Watch.runCalls react s calls, calls) ∧ run.watcher.stage = some (Stage.after script.ending) := by
  refine ⟨Watch.handed root script.batches, Watch.calls_handed root script.batches, fun react s => ⟨?_, rfl⟩⟩
  have hd : (Watch.deliverAll root react.recorded (s, []) script.batches).1 =
      (Watch.runCalls react s (Watch.handed root script.batches), Watch.handed root script.batches) := by
    rw [Watch.fst_deliverAll, Watch.runCalls_recorded, List.nil_append]
  exact hd

end QueryGlean
