import Mathlib
import QueryGlean.Watch

namespace QueryGlean.Watcher

-- What is done with a watcher. A watch runs while its end is waited for, or when there is time for it in
-- between (`turn`). Each brings the changes that the watch gets to see then.
inductive Call
  | start
  | stop
  | wait (script : Script)
  | turn (script : Script)

def Stage.next (script : Script) : Stage → Stage
  | .scheduled | .idle => .after script.ending
  | stage              => stage

namespace Call

def script? : Call → Option Script
  | start | stop => none
  | wait script | turn script => some script

def next : Call → Option Stage → Option Stage
  | start, stage           => some (stage.getD .scheduled)
  | stop, some (.failed e) => some (.failed e)
  | stop, _                => none
  | wait script, stage     => stage.map (·.next script)
  | turn script, stage     => stage.map (·.next script)

end Call

variable {σ : Type}

def step (react : Reaction σ) (w : Watcher) (s : σ) : Call → Step σ
  | .start       => w.start s
  | .stop        => w.stop s
  | .wait script => w.wait script react s
  | .turn script => w.drain script react s

def after (react : Reaction σ) (w : Watcher) (s : σ) : List Call → Watcher × σ
  | [] => (w, s)
  | c :: calls =>
    let r := w.step react s c
    after react r.watcher r.state calls

def HasFailed (react : Reaction σ) (w : Watcher) (s : σ) (calls : List Call) (error : String) : Prop :=
  ∃ before c later script, calls = before ++ c :: later ∧
    (after react w s before).1.stage.any Stage.isRunning ∧
      c.script? = some script ∧ script.ending = .failing error

variable {react : Reaction σ} {w : Watcher} {s : σ} {script : Script} {c : Call} {calls : List Call}
variable {stage : Option Stage} {e : String}

theorem drain_of_not_isRunning (h : w.stage.any Stage.isRunning = false) :
    w.drain script react s = { watcher := w, state := s } := by
  simp [drain, h]

theorem watcher_drain : (w.drain script react s).watcher = { w with stage := w.stage.map (·.next script) } := by
  obtain ⟨root, stage⟩ := w
  cases stage
  case none       => rfl
  case some stage => cases stage <;> rfl

theorem watcher_wait : (w.wait script react s).watcher = (w.drain script react s).watcher := by
  simp only [wait]
  split <;> rfl

theorem state_wait : (w.wait script react s).state = (w.drain script react s).state := by
  simp only [wait]
  split <;> rfl

theorem watcher_step : (w.step react s c).watcher = { w with stage := c.next w.stage } := by
  cases c
  case wait script => exact watcher_wait.trans watcher_drain
  case turn script => exact watcher_drain
  all_goals
    obtain ⟨root, stage⟩ := w
    cases stage
  case start.none      => rfl
  case start.some      => rfl
  case stop.none       => rfl
  case stop.some stage => cases stage <;> rfl

theorem after_eq_failed_iff {ending : Script.Ending} : Stage.after ending = .failed e ↔ ending = .failing e := by
  cases ending <;> simp [Stage.after]

theorem next_eq_failed_iff :
    c.next stage = some (.failed e) ↔
      stage = some (.failed e) ∨
        stage.any Stage.isRunning ∧ ∃ script, c.script? = some script ∧ script.ending = .failing e := by
  cases c <;> rcases stage with _ | stage <;> try cases stage
  all_goals simp [Call.next, Call.script?, Stage.next, Stage.isRunning, after_eq_failed_iff]

theorem error_stop : (w.stop s).error = some e ↔ w.stage = some (.failed e) := by
  unfold stop
  split <;> simp_all

theorem watcher_stop (h : (w.stop s).error = none) : (w.stop s).watcher = { root := w.root } := by
  unfold stop at h ⊢
  split
  case h_1 hn => rw [← hn]
  case h_2 hf => simp [hf] at h
  case h_3    => rfl

-- A failed watch is there to stay.
theorem step_of_failed (h : w.stage = some (.failed e)) :
    (w.step react s c).watcher = w ∧ (w.step react s c).state = s := by
  have hd (script : Script) : w.drain script react s = { watcher := w, state := s } :=
    drain_of_not_isRunning (by simp [h, Stage.isRunning])
  cases c
  case start       => simp [step, start, isHeld, h]
  case stop        => simp [step, stop, h]
  case wait script => simp [step, watcher_wait, state_wait, hd]
  case turn script => simp [step, hd]

theorem root_after : (after react w s calls).1.root = w.root := by
  induction calls generalizing w s
  case nil             => rfl
  case cons c calls hi => rw [after, hi, watcher_step]

theorem after_of_failed (h : w.stage = some (.failed e)) : after react w s calls = (w, s) := by
  induction calls
  case nil             => rfl
  case cons c calls hi =>
    have ⟨hw, hs⟩ : (w.step react s c).watcher = w ∧ (w.step react s c).state = s := step_of_failed h
    rw [after, hw, hs, hi]

theorem hasFailed_cons :
    HasFailed react w s (c :: calls) e ↔
      (w.stage.any Stage.isRunning ∧ ∃ script, c.script? = some script ∧ script.ending = .failing e) ∨
        HasFailed react (w.step react s c).watcher (w.step react s c).state calls e := by
  constructor
  case mp =>
    intro ⟨before, d, later, script, hc, hs, hd, he⟩
    cases before
    case nil =>
      cases hc
      exact .inl ⟨hs, script, hd, he⟩
    case cons =>
      cases hc
      exact .inr ⟨_, d, later, script, rfl, hs, hd, he⟩
  case mpr =>
    rintro (⟨hs, script, hd, he⟩ | ⟨before, d, later, script, hc, hs, hd, he⟩)
    · exact ⟨[], c, calls, script, rfl, hs, hd, he⟩
    · exact ⟨c :: before, d, later, script, by rw [hc]; rfl, hs, hd, he⟩

-- By induction on the calls: a running watch fails in the call that brings the failure, and then it stays failed.
theorem stage_after_eq_failed_iff :
    (after react w s calls).1.stage = some (.failed e) ↔
      w.stage = some (.failed e) ∨ HasFailed react w s calls e := by
  induction calls generalizing w s
  case nil             => simp [after, HasFailed]
  case cons c calls hi => rw [after, hi, hasFailed_cons, watcher_step, next_eq_failed_iff, or_assoc]

-- A stop after any calls: it fails with what a watch has failed with, it leaves a new watcher if it does not
-- fail, and everything as it is, whatever comes, if it does.
theorem stop_exact (root : Path) (react : Reaction σ) (s : σ) (calls : List Call) :
    let now := after react { root } s calls
    let stopped := now.1.stop now.2
    (∀ e, stopped.error = some e ↔ HasFailed react { root } s calls e) ∧
    (stopped.error = none → stopped.watcher = { root } ∧ ∀ script,
      after react stopped.watcher stopped.state [.start, .turn script] =
        ({ root, stage := some (Stage.after script.ending) },
          (Watch.deliverAll root react stopped.state script.batches).1)) ∧
    (∀ e, stopped.error = some e → ∀ later, after react now.1 now.2 (.stop :: later) = now) := by
  intro now stopped
  have hr : now.1.root = root := root_after
  refine ⟨fun e => ?_, fun hn => ?_, fun e he later => after_of_failed (error_stop.mp he)⟩
  case refine_1 =>
    rw [error_stop, stage_after_eq_failed_iff]
    simp
  case refine_2 =>
    -- A stop without an error leaves a watcher as it was at the beginning.
    have hw : stopped.watcher = { root } := hr ▸ watcher_stop hn
    exact ⟨hw, fun script => by rw [hw]; rfl⟩

def counting : Reaction Nat := fun n _ => (n + 1, false)

def savedOnce (ending : Script.Ending) : Script where
  batches := [[⟨.modified, "/site/a.js"⟩]]
  ending

theorem stop_exact_of_site :
    let ended := after counting { root := .ofString "/site" } 0 [.start, .turn (savedOnce .closed)]
    let failed := after counting { root := .ofString "/site" } 0 [.start, .turn (savedOnce (.failing "gone"))]
    ((ended.1.stop ended.2).error = none ∧ (ended.1.stop ended.2).watcher = { root := .ofString "/site" }) ∧
      (failed.1.stop failed.2).error = some "gone" ∧
        ∀ later, after counting failed.1 failed.2 (.stop :: later) = failed := by
  intro ended failed
  have ⟨_, hn, _⟩ := stop_exact (.ofString "/site") counting 0 [.start, .turn (savedOnce .closed)]
  have ⟨_, _, hf⟩ := stop_exact (.ofString "/site") counting 0 [.start, .turn (savedOnce (.failing "gone"))]
  have he : (ended.1.stop ended.2).error = none := by rfl
  have hg : (failed.1.stop failed.2).error = some "gone" := by rfl
  exact ⟨⟨he, (hn he).left⟩, hg, hf "gone" hg⟩

-- After a stop that fails, the failed watch is still held, and a start begins nothing.
theorem isHeld_of_failedStop :
    let now := after counting { root := .ofString "/site" } 0 [.start, .turn (savedOnce (.failing "gone"))]
    (now.1.stop now.2).error = some "gone" ∧ (now.1.stop now.2).watcher.isHeld ∧
      after counting now.1 now.2 [.stop, .start, .turn (savedOnce .closed)] = now := by
  intro now
  refine ⟨?_, ?_, ?_⟩ <;> rfl

end QueryGlean.Watcher
