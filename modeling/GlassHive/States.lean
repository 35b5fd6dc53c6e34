import Mathlib.Data.List.Basic

/-!
# States and constants of the durable store

The enumerations behind the `state`, `kind` and `status` columns of `store.py`, and the frozen
sets the store tests them against. A column whose text the store never enumerates stays a string.
-/

namespace GlassHive

/-- Membership of a column value in a literal list, the `IN (…)` of a statement. -/
def oneOf {α : Type} [BEq α] (x : α) (xs : List α) : Bool :=
  xs.contains x

@[simp]
theorem oneOf_eq_true {α : Type} [BEq α] [LawfulBEq α] (x : α) (xs : List α) :
    oneOf x xs = true ↔ x ∈ xs := by
  simp [oneOf]

@[simp]
theorem oneOf_eq_false {α : Type} [BEq α] [LawfulBEq α] (x : α) (xs : List α) :
    oneOf x xs = false ↔ x ∉ xs := by
  simp [oneOf]

/-- `runs.state`. -/
inductive RunState
  | queued | claimed | admitted | running | settling | paused | needsInput
  | completed | failed | cancelled | interrupted
  deriving DecidableEq, Repr

/-- `run_attempts.state`: the state of the run, or `retry_queued`. -/
inductive AttemptState
  | of (st : RunState)
  | retryQueued
  deriving DecidableEq, Repr

/-- `workers.state`. -/
inductive WorkerState
  | created | starting | running | ready | paused | needsInput | stopping
  | terminating | terminationFailed | terminated | gcClaimed | failed
  deriving DecidableEq, Repr

/-- `host_run_leases.status`. -/
inductive LeaseStatus
  | active | released
  deriving DecidableEq, Repr

/-- `host_run_leases.startup_state`. -/
inductive StartupState
  | legacyUnknown | reserved | confirmed | terminationUnconfirmed | terminationConfirmed
  deriving DecidableEq, Repr

/-- `scheduled_runs.state`. -/
inductive ScheduleState
  | pending | claimed | queued | running | retryable | actionRequired | needsInput
  | completed | failed | cancelled
  deriving DecidableEq, Repr

/-- `recurring_schedule_occurrences.state`. -/
inductive OccurrenceState
  | pending | claimed | queued | running | retryable | actionRequired | needsInput
  | completed | failed | cancelled | skipped
  deriving DecidableEq, Repr

/-- `workspace_gc_tombstones.phase`. -/
inductive TombstonePhase
  | claimed | cleanupPending | completed
  deriving DecidableEq, Repr

/-- `workers.workspace_kind`. -/
inductive WorkspaceKind
  | named | ephemeral | legacy
  deriving DecidableEq, Repr

/-- `recurring_schedule_definitions.overlap_policy`. -/
inductive OverlapPolicy
  | skip | queue
  deriving DecidableEq, Repr

/-- `COMPUTE_OPERATION_KINDS`. -/
inductive OperationKind
  | idle | needsInput | paused | pauseWorker | resumeWorker | maxDuration | pauseRun | resumeRun
  | interruptRun | steerRun | stopRun | terminateWorker
  deriving DecidableEq, Repr

/-- `COMPUTE_OPERATION_SCOPES`. -/
inductive OperationScope
  | computeOnly | run | work | worker
  deriving DecidableEq, Repr

namespace RunState

/-- `NONTERMINAL_RUN_STATES`. -/
def nonterminal : List RunState :=
  [queued, claimed, admitted, running, settling, paused, needsInput]

/-- `EXECUTING_RUN_STATES`. -/
def executing : List RunState :=
  [claimed, admitted, running, settling, paused, needsInput]

/-- `PROCESS_BEARING_RUN_STATES`. -/
def processBearing : List RunState :=
  [running, settling, paused]

/-- `TERMINAL_RUN_STATES`. -/
def terminal : List RunState :=
  [completed, failed, cancelled, interrupted]

/-- The nonterminal states that the checks for queued and running work lack. -/
def overlooked : List RunState :=
  [claimed, admitted, settling, paused, needsInput]

theorem mem_nonterminal_iff_overlooked (st : RunState) :
    st ∈ nonterminal ↔ st ∈ overlooked ∨ st = .queued ∨ st = .running := by
  cases st <;> decide

/-- Every run state is terminal or nonterminal, never both. -/
theorem mem_terminal_iff (st : RunState) : st ∈ terminal ↔ st ∉ nonterminal := by
  cases st <;> decide

/-- The text of a state, where a statement writes it into another column. -/
def text : RunState → String
  | queued => "queued"
  | claimed => "claimed"
  | admitted => "admitted"
  | running => "running"
  | settling => "settling"
  | paused => "paused"
  | needsInput => "needs_input"
  | completed => "completed"
  | failed => "failed"
  | cancelled => "cancelled"
  | interrupted => "interrupted"

end RunState

namespace WorkerState

/-- The three states of a permanently closed workspace. -/
def closed : List WorkerState :=
  [terminating, terminationFailed, terminated]

end WorkerState

/-- The states `finalize_schedule` treats as terminal. -/
def ScheduleState.terminal : List ScheduleState :=
  [.completed, .failed, .cancelled]

/-- The state an occurrence takes when its scheduled run takes this one. -/
def ScheduleState.occurrence : ScheduleState → OccurrenceState
  | .pending => .pending
  | .claimed => .claimed
  | .queued => .queued
  | .running => .running
  | .retryable => .retryable
  | .actionRequired => .actionRequired
  | .needsInput => .needsInput
  | .completed => .completed
  | .failed => .failed
  | .cancelled => .cancelled

/-- The text of a schedule state in the `outcome` column. -/
def ScheduleState.text : ScheduleState → String
  | .pending => "pending"
  | .claimed => "claimed"
  | .queued => "queued"
  | .running => "running"
  | .retryable => "retryable"
  | .actionRequired => "action_required"
  | .needsInput => "needs_input"
  | .completed => "completed"
  | .failed => "failed"
  | .cancelled => "cancelled"

namespace OccurrenceState

/-- The states an occurrence never leaves. -/
def terminal : List OccurrenceState :=
  [completed, failed, cancelled, skipped]

end OccurrenceState

namespace OperationKind

/-- `COMPUTE_OPERATION_SCOPE_BY_KIND`. -/
def scope : OperationKind → OperationScope
  | idle | needsInput | paused | pauseWorker | resumeWorker => .computeOnly
  | maxDuration | pauseRun | resumeRun | interruptRun | steerRun => .run
  | stopRun => .work
  | terminateWorker => .worker

/-- The text of a kind, where a statement writes it into a reason. -/
def text : OperationKind → String
  | idle => "idle"
  | needsInput => "needs_input"
  | paused => "paused"
  | pauseWorker => "pause_worker"
  | resumeWorker => "resume_worker"
  | maxDuration => "max_duration"
  | pauseRun => "pause_run"
  | resumeRun => "resume_run"
  | interruptRun => "interrupt_run"
  | steerRun => "steer_run"
  | stopRun => "stop_run"
  | terminateWorker => "terminate_worker"

/-- `RUN_SCOPED_OPERATION_KINDS`. -/
def runScoped : List OperationKind :=
  [paused, maxDuration, pauseRun, resumeRun, interruptRun, steerRun, stopRun]

/-- `STOPPING_OPERATION_KINDS`. -/
def stopping : List OperationKind :=
  [maxDuration, stopRun, terminateWorker]

end OperationKind

end GlassHive
