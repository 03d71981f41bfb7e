/-
# Failures of a command

Why a command did not do what it was called for, each with its wording: what was tried first, then
the causes.
-/
import FormRehearsal.Action.Error
import FormRehearsal.Files.Basic
import FormRehearsal.Program.Basic
import FormRehearsal.Settings.Override

namespace FormRehearsal

/-- Why a command failed. -/
inductive Failure where
  | logLevel
  | readSettings (path : String) (cause : FileError)
  | parseSettings (path : String)
  | overrideSettings (cause : Settings.InvalidOverride)
  | readProgram (path : String) (cause : FileError)
  | parseProgram (path : String) (cause : Program.ParseError)
  | readDataset (path : String) (cause : FileError)
  | readPage (path : String) (cause : FileError)
  | parsePage (path : String)
  | writeReport (path : String) (cause : FileError)
  | runFailed (message : String)
  | runStopped
  deriving Repr

/-- The wording of a failure. -/
def Failure.message : Failure → String
  | logLevel => "Invalid log level"
  | readSettings path cause => "Failed to read config file " ++ path ++ ": " ++ cause.message
  | parseSettings path => "Failed to parse config file " ++ path
  | overrideSettings cause => "Invalid environment override: " ++ cause.message
  | readProgram path cause => "Failed to read program " ++ path ++ ": " ++ cause.message
  | parseProgram path cause =>
    "Failed to parse program " ++ path ++ ": " ++ (RunError.invalidProgram cause.message).message
  | readDataset path cause => "Failed to read dataset " ++ path ++ ": " ++ cause.message
  | readPage path cause => "Failed to read page fixture " ++ path ++ ": " ++ cause.message
  | parsePage path => "Failed to parse page fixture " ++ path
  | writeReport path cause => "Failed to write report " ++ path ++ ": " ++ cause.message
  | runFailed message => "automation failed: " ++ message
  | runStopped => "automation stopped before completion"

end FormRehearsal
