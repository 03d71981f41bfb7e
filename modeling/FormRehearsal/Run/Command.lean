/-
# Control commands and their replies

A command starts a run or stops the one in progress; the reply says whether it was accepted. Both
are read from objects, a command also from an array whose first item is its name.
-/
import FormRehearsal.Json.Shape
import FormRehearsal.Program.Basic

namespace FormRehearsal

/-- What a controller asks for. -/
inductive Command where
  | start (steps : Program)
  | stop
  deriving Repr

namespace Command

/-- The name of the command that starts a run. -/
def startName : String := "run-automation"

/-- The name of the command that stops a run. -/
def stopName : String := "stop-automation"

/-- A command as JSON. -/
def toJson : Command → Json
  | start steps => .object [("type", .string startName), ("steps", steps.toJson)]
  | stop => .object [("type", .string stopName)]

/-- The steps of a command: an array of objects. -/
def steps? (v : Json) : Option Program := v.toItems?.bind (·.mapM Json.toFields?)

/-- The start of a run with the steps that are given, none if they are missing. -/
def startWith? (steps : Option Json) : Option Command := (Json.partOr [] steps? steps).map .start

/-- The command that a value describes. -/
def ofJson? : Json → Option Command
  | .object fields =>
    match Record.get? "type" fields with
    | some (.string name) =>
      if name = startName then startWith? (Record.get? "steps" fields)
      else if name = stopName then some .stop
      else none
    | _ => none
  | .array (.string name :: r) =>
    if name = startName then
      match r with
      | [] => startWith? none
      | [steps] => startWith? (some steps)
      | _ => none
    else if name = stopName ∧ r.isEmpty then some .stop
    else none
  | _ => none

end Command

/-- The reply to a command. -/
structure Ack where
  ok : Bool
  reason : Option String := none
  deriving DecidableEq, Repr

namespace Ack

/-- The command was accepted. -/
def accepted : Ack := { ok := true }

/-- The command was rejected because a run is in progress. -/
def alreadyRunning : Ack := { ok := false, reason := some "already_running" }

/-- A reply as JSON; without a reason there is no field for it. -/
def toJson (a : Ack) : Json :=
  .object (("ok", .bool a.ok) :: (a.reason.map fun r => ("reason", Json.string r)).toList)

/-- The reply that a value describes. -/
def ofJson? (v : Json) : Option Ack :=
  match v.parts? ["ok", "reason"] with
  | some [some (.bool ok), reason] =>
    (Json.partOr none Json.toOptionalText? reason).map fun reason => ⟨ok, reason⟩
  | _ => none

end Ack

end FormRehearsal
