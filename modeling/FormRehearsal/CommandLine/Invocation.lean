/-
# Invocations

What the program was called for: one of four commands with its options, and the options that hold for
every command. The latter stand before the command.

* `name_ofName?` : a command is called by its name.
-/
import FormRehearsal.CommandLine.Grammar
import FormRehearsal.Program.RepeatCount

namespace FormRehearsal

/-- How results are written. -/
inductive OutputFormat where
  | human
  | json
  deriving DecidableEq, Repr

/-- The options that hold for every command. -/
structure CommonOptions where
  settingsPath : Option String := none
  logLevel : String := "info"
  debug : Bool := false
  output : OutputFormat := .human
  deriving DecidableEq, Repr

/-- Which program is laid out over which rows, and how often. -/
structure StreamOptions where
  steps : Option String := none
  rows : Option String := none
  times : RepeatCount := .once
  deriving DecidableEq, Repr

/-- What a run is given and what it leaves. -/
structure RunOptions where
  stream : StreamOptions := {}
  page : Option String := none
  report : Option String := none
  journal : Bool := false
  deriving DecidableEq, Repr

/-- What is to be done. -/
inductive Task where
  | run (options : RunOptions)
  | expand (options : StreamOptions)
  | rows (path : String) (csvOut : Bool)
  | example (compact : Bool)
  deriving DecidableEq, Repr

/-- A call of the program. -/
structure Invocation where
  options : CommonOptions
  task : Task
  deriving DecidableEq, Repr

namespace Invocation

/-! ## The grammar -/

/-- The commands. -/
inductive Name where
  | run
  | expand
  | rows
  | sample
  deriving DecidableEq, Repr

/-- The name of a command. -/
def Name.text : Name → String
  | run => "run"
  | expand => "expand"
  | rows => "rows"
  | sample => "example"

/-- All commands. -/
def Name.all : List Name := [.run, .expand, .rows, .sample]

/-- The command of a name. -/
def Name.ofText? (text : String) : Option Name := Name.all.find? (·.text = text)

/-- A command is called by its name. -/
theorem Name.ofText?_text (name : Name) : Name.ofText? name.text = some name := by
  cases name <;> decide

/-- The name that asks for help about a command. -/
def helpName : String := "help"

/-- A path, which has at least one character. -/
def pathOption (name : String) (letter : Option Char := none) : OptionSpec :=
  { name, letter, kind := .value (!·.isEmpty) }

/-- A value out of some. -/
def choiceOption (name : String) (choices : List String) (letter : Option Char := none) :
    OptionSpec :=
  { name, letter, kind := .value choices.contains }

/-- Any value. -/
def textOption (name : String) (letter : Option Char := none) : OptionSpec :=
  { name, letter, kind := .value fun _ => true }

/-- A switch. -/
def switchOption (name : String) (letter : Option Char := none) : OptionSpec :=
  { name, letter, kind := .switch }

/-- The options that every command has. -/
def standardOptions : List OptionSpec :=
  [{ name := "help", letter := some 'h', kind := .help },
    { name := "version", letter := some 'V', kind := .version }]

/-- The arguments before the command. -/
def grammar : Grammar where
  command := none
  options := standardOptions ++
    [pathOption "config" (some 'c'), textOption "log-level" (some 'l'),
      switchOption "debug" (some 'd'), choiceOption "log-format" ["text", "json"],
      choiceOption "output" ["human", "json"] (some 'o')]
  subcommands := helpName :: Name.all.map Name.text

/-- The options about a stream of steps. -/
def streamSpecs : List OptionSpec := [pathOption "steps", pathOption "rows", textOption "repeat"]

/-- The arguments after a command. -/
def Name.grammar (name : Name) : Grammar :=
  match name with
  | run =>
    { command := some name.text
      options := standardOptions ++ streamSpecs ++
        [pathOption "page", pathOption "report", switchOption "journal"] }
  | expand => { command := some name.text, options := standardOptions ++ streamSpecs }
  | rows =>
    { command := some name.text
      options := standardOptions ++ [switchOption "csv-out"]
      positional := some (pathOption "csv") }
  | sample =>
    { command := some name.text, options := standardOptions ++ [switchOption "compact"] }

/-! ## Reading a call -/

/-- Which help the words after `help` ask for; no command has commands below it. -/
def helpUsage : List String → Usage
  | [] => .help
  | [word] => if word = helpName || (Name.ofText? word).isSome then .help else .invalidSubcommand
  | _ => .invalidSubcommand

/-- The options that hold for every command. -/
def commonOptions (m : Matches) : CommonOptions :=
  { settingsPath := m.value? "config"
    logLevel := (m.value? "log-level").getD "info"
    debug := m.has "debug"
    output := if m.value? "output" = some "json" then .json else .human }

/-- The options about a stream of steps. -/
def streamOptions (m : Matches) : StreamOptions :=
  { steps := m.value? "steps"
    rows := m.value? "rows"
    times := ((m.value? "repeat").map RepeatCount.parse).getD .once }

/-- What is to be done by a command. -/
def Name.task (name : Name) (m : Matches) : Task :=
  match name with
  | run =>
    .run { stream := streamOptions m
           page := m.value? "page"
           report := m.value? "report"
           journal := m.has "journal" }
  | expand => .expand (streamOptions m)
  | rows => .rows ((m.value? "csv").getD "") (m.has "csv-out")
  | sample => .example (m.has "compact")

/-- Reads the arguments of a call. What is wrong after the command is told before a wrong value of
the last option in front of it. -/
def read (arguments : List String) : Except Usage Invocation := do
  let (m, sub) ← grammar.readArguments {} arguments
  match sub with
  | none =>
    let m ← m.resolve
    if m.found.isEmpty then .error .helpForNothing else .error .missingSubcommand
  | some (word, rest) =>
    match Name.ofText? word with
    | none => .error (helpUsage rest)
    | some name =>
      let below ← name.grammar.readAll rest
      let m ← m.resolve
      return { options := commonOptions m, task := name.task below }

end Invocation

/-- The text of a request for the version. -/
def Usage.versionText (command : Option String) : String :=
  "formpilot-cli" ++ ((command.map ("-" ++ ·)).getD "") ++ " 0.1.0"

/-- Whether an answer to the arguments is no error. -/
def Usage.isAnswer : Usage → Bool
  | help | version _ => true
  | _ => false

end FormRehearsal
