/-
# Outcomes and reports

A run is completed, failed or cancelled; its report also lists the steps that were carried out.
What depends on the wall clock (the run's id, instants and latencies) is left to the `Stamps` with
which a report is written.
-/
import FormRehearsal.Action.Step
import FormRehearsal.Run.Status

namespace FormRehearsal

/-- How a run ended. -/
inductive Outcome where
  | completed
  | failed (message : String)
  | cancelled
  deriving DecidableEq, Repr

namespace Outcome

/-- The outcome of a run that an error ended. -/
def ofError (e : RunError) : Outcome :=
  if e.isCancellation then .cancelled else .failed e.message

/-- The last status line of a run. -/
def statusText : Outcome → String
  | completed => "Automation completed."
  | failed message => "Error: " ++ message
  | cancelled => "Error: " ++ RunError.cancelled.message

/-- An outcome as JSON. -/
def toJson : Outcome → Json
  | completed => .object [("state", .string "completed")]
  | failed message => .object [("state", .string "failed"), ("message", .string message)]
  | cancelled => .object [("state", .string "cancelled")]

end Outcome

/-- A step that was carried out, and the instants at which it began and ended. -/
structure ActionReport where
  kind : ActionKind
  selector : Option String
  startedAt : Nat
  finishedAt : Nat
  deriving DecidableEq, Repr

/-- The report of carrying out a step. -/
def ActionReport.ofStep (step : Step) (startedAt finishedAt : Nat) : ActionReport :=
  ⟨step.kind, step.selector, startedAt, finishedAt⟩

/-- How a run went. -/
structure Report where
  outcome : Outcome
  total : Nat
  actions : List ActionReport
  startedAt : Nat
  finishedAt : Nat
  deriving DecidableEq, Repr

namespace Report

/-- The number of steps that were carried out. -/
def completed (r : Report) : Nat := r.actions.length

/-- How what depends on the wall clock is written; instants are milliseconds of the run's clock. -/
structure Stamps where
  /-- the id of the run -/
  runId : Json
  /-- an instant of the report -/
  instant : Nat → Json
  /-- an instant of an action -/
  actionInstant : Nat → Json
  /-- a number of milliseconds -/
  latency : Nat → Json

/-- An action as JSON. -/
def actionJson (stamps : Stamps) (a : ActionReport) : Json :=
  .object [("action", .string a.kind.name), ("selector", .ofString? a.selector),
    ("started_at", stamps.actionInstant a.startedAt),
    ("finished_at", stamps.actionInstant a.finishedAt),
    ("latency_ms", stamps.latency (a.finishedAt - a.startedAt))]

/-- A report as JSON. -/
def toJson (stamps : Stamps) (r : Report) : Json :=
  .object [("run_id", stamps.runId), ("outcome", r.outcome.toJson),
    ("steps_total", .ofNat r.total), ("steps_completed", .ofNat r.completed),
    ("actions", .array (r.actions.map (actionJson stamps))),
    ("started_at", stamps.instant r.startedAt), ("finished_at", stamps.instant r.finishedAt)]

end Report

end FormRehearsal
