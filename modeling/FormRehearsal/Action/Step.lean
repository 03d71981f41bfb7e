/-
# Steps

A step holds what its action needs and nothing else. It is decoded from an instruction only when its
turn comes, so that a malformed step does not keep earlier ones from being carried out.
-/
import FormRehearsal.Action.Field

namespace FormRehearsal

/-- An action with its values. -/
inductive Step where
  | wait (ms : Nat)
  | waitFor (selector : String) (budget : Nat)
  | click (selector : String)
  | type (selector text : String) (clear : Bool)
  | paste (selector text : String)
  | keySequence (selector : Option String) (keys : List String) (delay : Nat)
  | scroll (x y : Float) (behavior : ScrollBehavior)
  | focus (selector : String)
  | setValue (selector value : String)
  | highlight (selector : String) (duration : Nat)
  deriving DecidableEq, Repr

namespace Step

/-- The kind of a step. -/
def kind : Step → ActionKind
  | wait .. => .wait
  | waitFor .. => .waitFor
  | click .. => .click
  | type .. => .type
  | paste .. => .paste
  | keySequence .. => .keySequence
  | scroll .. => .scroll
  | focus .. => .focus
  | setValue .. => .setValue
  | highlight .. => .highlight

/-- The selector of a step, if it has one. -/
def selector : Step → Option String
  | wait .. | scroll .. => none
  | keySequence s .. => s
  | waitFor s .. | click s | type s .. | paste s .. | focus s | setValue s .. | highlight s .. =>
    some s

/-! ## Decoding -/

/-- Milliseconds of a `wait` without a value. -/
def defaultWait : Nat := 500

/-- The budget of a `waitFor` without a value. -/
def defaultBudget : Nat := 5000

/-- The pause after a key without a value. -/
def defaultDelay : Nat := 100

/-- The length of a highlight without a value. -/
def defaultHighlight : Nat := 800

/-- The selector of an instruction, without which the kind cannot act. -/
def requiredSelector (kind : ActionKind) (raw : Instruction) : Except ActionError String :=
  match raw.selector? with
  | some s => .ok s
  | none => .error (.missing kind.name "selector")

/-- The step that an instruction of this kind stands for. -/
def decode (kind : ActionKind) (raw : Instruction) : Except ActionError Step :=
  match kind with
  | .wait => .ok (.wait (raw.millis "ms" defaultWait))
  | .waitFor => (requiredSelector kind raw).map (.waitFor · (raw.millis "timeoutMs" defaultBudget))
  | .click => (requiredSelector kind raw).map .click
  | .type => (requiredSelector kind raw).map (.type · (raw.text "text") (raw.flag "clear" true))
  | .paste => (requiredSelector kind raw).map (.paste · (raw.text "text"))
  | .keySequence =>
    match raw.keys with
    | [] => .error (.missing kind.name "keys")
    | keys => .ok (.keySequence raw.selector? keys (raw.millis "delayMs" defaultDelay))
  | .scroll => raw.behavior.map (.scroll (raw.double "x") (raw.double "y"))
  | .focus => (requiredSelector kind raw).map .focus
  | .setValue => (requiredSelector kind raw).map (.setValue · (raw.text "value"))
  | .highlight =>
    (requiredSelector kind raw).map (.highlight · (raw.millis "durationMs" defaultHighlight))

end Step

end FormRehearsal
