/-
# Settings from the environment

The variables of a process have bytes for values; one whose bytes are no text counts as not set where
a text is asked for. Two variables override settings. A value that cannot be read is an error; what
was overridden before it stays so.

* `text?_put_self` : a text that a variable was set to is read back.
-/
import FormRehearsal.Settings.Basic
import FormRehearsal.Text.Blank
import FormRehearsal.Text.Numeral
import FormRehearsal.Text.Quoted
import FormRehearsal.Text.Split

namespace FormRehearsal

/-- The variables of a process. Those whose names are no texts are left out: nothing asks for them. -/
abbrev Environment := Record ByteArray

namespace Environment

/-- The text of a variable. -/
def text? (env : Environment) (key : String) : Option String :=
  (env.get? key).bind String.fromUTF8?

/-- The bytes of a text are read as the text. -/
theorem fromUTF8?_toByteArray (value : String) :
    String.fromUTF8? value.toByteArray = some value := by
  rw [String.fromUTF8?, dif_pos value.isValidUTF8]
  rfl

@[simp] theorem text?_put_self (env : Environment) (key value : String) :
    text? (env.put key value.toByteArray) key = some value := by
  rw [text?, Record.get?_put_self, Option.bind_some, fromUTF8?_toByteArray]

end Environment

namespace Settings

/-- The variable that overrides the poll interval. -/
def pollIntervalKey : String := "FORMPILOT_POLL_INTERVAL_MS"

/-- The variable that overrides whether a stop request ends waits. -/
def interruptibleKey : String := "FORMPILOT_INTERRUPT_WAITS"

/-- A variable whose value cannot be read. -/
structure InvalidOverride where
  key : String
  value : String
  deriving DecidableEq, Repr

/-- The wording of the error. -/
def InvalidOverride.message (e : InvalidOverride) : String :=
  "invalid value " ++ Text.shown e.value ++ " for " ++ e.key

/-- The truth value that a word stands for. -/
def switch? (word : String) : Option Bool :=
  if word ∈ ["1", "true", "yes", "on"] then some true
  else if word ∈ ["0", "false", "no", "off"] then some false
  else none

/-- Overrides one setting, if its variable is set to a text. -/
def overrideWith {α : Type} (env : Environment) (key : String) (read : String → Option α)
    (set : α → Settings) (s : Settings) : Except InvalidOverride Settings :=
  match env.text? key with
  | none => .ok s
  | some raw =>
    match read (Text.trimmed raw) with
    | some value => .ok (set value)
    | none => .error ⟨key, raw⟩

/-- Overrides the poll interval. -/
def overridePollInterval (env : Environment) (s : Settings) : Except InvalidOverride Settings :=
  s.overrideWith env pollIntervalKey (fun t => Text.signedWord? t.toList) fun value =>
    { s with pollInterval := value }

/-- Overrides whether a stop request ends waits. -/
def overrideInterruptible (env : Environment) (s : Settings) : Except InvalidOverride Settings :=
  s.overrideWith env interruptibleKey (fun t => switch? (Text.asciiLower t)) fun value =>
    { s with interruptible := value }

/-- The settings after the overrides, and the error that kept the last of them from applying. -/
def override (env : Environment) (s : Settings) : Option InvalidOverride × Settings :=
  match s.overridePollInterval env with
  | .error e => (some e, s)
  | .ok s =>
    match s.overrideInterruptible env with
    | .error e => (some e, s)
    | .ok s => (none, s)

end Settings

end FormRehearsal
