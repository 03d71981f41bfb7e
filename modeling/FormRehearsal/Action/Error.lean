/-
# What can go wrong with an action

Three layers: a surface refuses a capability, an action fails, a run cannot begin or go on. Each
error is a cause; its wording is in one function.
-/
import FormRehearsal.Action.Kind

namespace FormRehearsal

/-- The text of a failure that comes from a stop request. -/
def stoppedByUser : String := "Automation stopped by user."

/-- Why a surface did not do what it was asked. -/
inductive SurfaceError where
  | detached (element : String)
  | rejected (reason : String)
  | unavailable (reason : String)
  deriving DecidableEq, Repr

/-- The wording of a surface error. -/
def SurfaceError.message : SurfaceError → String
  | detached element => "element detached: " ++ element
  | rejected reason => "surface rejected operation: " ++ reason
  | unavailable reason => "surface unavailable: " ++ reason

/-- The wording for an unknown name of a kind. -/
def ActionKind.unknownMessage (name : String) : String := "unknown action: " ++ name

/-- The wording for an unknown name of a way of scrolling. -/
def ScrollBehavior.unknownMessage (name : String) : String :=
  "unsupported scroll behavior '" ++ name ++ "'"

/-- Why a step is not valid. -/
inductive Invalidity where
  | missing (action field : String)
  | unsupportedBehavior (name : String)
  | other (reason : String)
  deriving DecidableEq, Repr

/-- The wording of an invalidity. -/
def Invalidity.message : Invalidity → String
  | missing action field => action ++ " requires " ++ field
  | unsupportedBehavior name => ScrollBehavior.unknownMessage name
  | other reason => reason

/-- Why an action failed. -/
inductive ActionError where
  | invalid (reason : Invalidity)
  | lookupTimeout (selector : String) (budget : Nat)
  | noActiveElement
  | interrupted (reason : String)
  | surface (error : SurfaceError)
  deriving DecidableEq, Repr

namespace ActionError

/-- A field that the action needs is not there. -/
def missing (action field : String) : ActionError := .invalid (.missing action field)

/-- The wording of an action error. -/
def message : ActionError → String
  | invalid reason => reason.message
  | lookupTimeout selector _ => "Timeout waiting for selector: " ++ selector
  | noActiveElement => "No active element to send keys to."
  | interrupted reason => reason
  | surface error => error.message

/-- Whether the failure comes from a stop request. -/
def isInterruption : ActionError → Bool
  | interrupted _ => true
  | _ => false

end ActionError

/-- Why a run does not begin or does not go on. -/
inductive RunError where
  | invalidProgram (reason : String)
  | unknownAction (name : String)
  | alreadyRunning
  | cancelled
  | action (error : ActionError)
  deriving DecidableEq, Repr

namespace RunError

/-- The wording of a run error. -/
def message : RunError → String
  | invalidProgram reason => "Invalid JSON: " ++ reason
  | unknownAction name => "Unknown action: " ++ name
  | alreadyRunning => "Automation already running."
  | cancelled => stoppedByUser
  | action error => error.message

/-- Whether the run ended because of a stop request. -/
def isCancellation : RunError → Bool
  | cancelled => true
  | action error => error.isInterruption
  | _ => false

end RunError

end FormRehearsal
