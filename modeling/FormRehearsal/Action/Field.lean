/-
# Fields of a step

A step's fields are read leniently, since placeholders leave texts where numbers or truth values
were meant. Each reader takes a field of its own and has a value for every JSON value in it.
-/
import FormRehearsal.Action.Error
import FormRehearsal.Json.Printer
import FormRehearsal.Number.Reading
import FormRehearsal.Program.Basic
import FormRehearsal.Text.Blank
import FormRehearsal.Text.Split

namespace FormRehearsal.Instruction

/-- The selector, unless it is missing, blank or no text. -/
def selector? (step : Instruction) : Option String :=
  match step.get? "selector" with
  | some (.string s) => if Text.isBlankText s then none else some s
  | _ => none

/-- The double that a text stands for, blank ends aside. -/
def binary64? (s : String) : Option Binary64 := Binary64.read? (Text.trim s.toList)

/-- The text of a field: a text as it is, a number or a truth value as it is written. -/
def text (step : Instruction) (name : String) : String :=
  match step.get? name with
  | some (.string s) => s
  | some (.number n) => String.ofList n.text
  | some (.bool true) => "true"
  | some (.bool false) => "false"
  | _ => ""

/-- Milliseconds from a number or a text: whole, not negative, at most 2^64 - 1. What is not finite
counts as missing. -/
def millis (step : Instruction) (name : String) (byDefault : Nat) : Nat :=
  let value := match step.get? name with
    | some (.number n) => some n.toBinary64
    | some (.string s) => binary64? s
    | _ => none
  (value.bind Binary64.toWord?).getD byDefault

/-- A double from a number or a text, otherwise zero. -/
def double (step : Instruction) (name : String) : Float :=
  match step.get? name with
  | some (.number n) => n.toBinary64.toFloat
  | some (.string s) => ((binary64? s).map Binary64.toFloat).getD 0
  | _ => 0

/-- A truth value, or a text that spells one in any case. -/
def flag (step : Instruction) (name : String) (byDefault : Bool) : Bool :=
  match step.get? name with
  | some (.bool b) => b
  | some (.string s) =>
    let word := Text.asciiLower s
    if word = "false" then false else if word = "true" then true else byDefault
  | _ => byDefault

/-- The key that an item of a list of keys stands for. -/
def key? : Json → Option String
  | .string s => some s
  | .number n => some (String.ofList n.text)
  | _ => none

/-- The keys: those of a list, or a single one. -/
def keys (step : Instruction) : List String :=
  match step.get? "keys" with
  | some (.array items) => items.filterMap key?
  | some (.string s) => if s.isEmpty then [] else [s]
  | _ => []

/-- The way of scrolling; only a text can be wrong. -/
def behavior (step : Instruction) : Except ActionError ScrollBehavior :=
  match step.get? "behavior" with
  | some (.string s) =>
    match ScrollBehavior.ofName? s with
    | some b => .ok b
    | none => .error (.invalid (.unsupportedBehavior s))
  | _ => .ok .smooth

/-- The name of the action as it is shown: a text as it is, any other value as JSON. -/
def actionName (step : Instruction) : String :=
  match step.get? "action" with
  | some (.string s) => s
  | some .null | none => "(missing)"
  | some other => other.compact

/-- The kind of the step's action. -/
def kind (step : Instruction) : Except RunError ActionKind :=
  match step.get? "action" with
  | some (.string s) =>
    match ActionKind.ofName? s with
    | some kind => .ok kind
    | none => .error (.unknownAction s)
  | _ => .error (.unknownAction step.actionName)

end FormRehearsal.Instruction
