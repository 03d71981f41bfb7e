/-
# Carrying out a call

A program is called with arguments, files and variables: the variables of the local file are loaded,
the arguments and the settings are read, then the command does its work. What it prints is a list of
texts with the instants at which they appear; what it leaves are files. Clock readings are written as
a `Clock` says.
-/
import FormRehearsal.CommandLine.Failure
import FormRehearsal.CommandLine.Invocation
import FormRehearsal.Dataset.Printer
import FormRehearsal.Page.File
import FormRehearsal.Program.Expansion
import FormRehearsal.Run.Rehearsal
import FormRehearsal.Settings.File
import FormRehearsal.Settings.LocalFile
import FormRehearsal.Settings.Location

namespace FormRehearsal

/-- How clock readings are written; instants are milliseconds since the start of the run. -/
structure Clock where
  /-- the time of day in front of a line -/
  stamp : Nat → String
  /-- how long a run took -/
  elapsed : Nat → String
  /-- clock readings in a report -/
  report : Report.Stamps

/-- A text and the instant at which it is printed. -/
structure Printed where
  instant : Nat
  text : String
  deriving DecidableEq, Repr

/-- What came of a call. -/
structure Effect where
  printed : List Printed := []
  failure : Option Failure := none
  files : Files

/-- What came of a program that was called with some arguments. -/
inductive Answer where
  /-- the local file has a variable that cannot be set -/
  | brokenOff (cause : Unsettable)
  | usage (usage : Usage)
  | effect (effect : Effect)

/-- What a call finds. -/
structure Surroundings where
  files : Files
  environment : Environment
  clock : Clock
  runtime : Runtime := {}
  /-- the instant of the run at which it is interrupted -/
  interrupt : Option Nat := none

namespace CommandLine

/-- A printed line. -/
def line (instant : Nat) (text : String) : Printed := ⟨instant, text ++ "\n"⟩

/-! ## What commands read -/

/-- The program of a file, or the sample. -/
def loadProgram (files : Files) : Option String → Except Failure Program
  | none => .ok .sample
  | some path =>
    match files.read path with
    | .error e => .error (.readProgram path e)
    | .ok text =>
      match Program.parse text with
      | .error e => .error (.parseProgram path e)
      | .ok program => .ok program

/-- The dataset of a file, or an empty one. -/
def loadDataset (files : Files) : Option String → Except Failure Dataset
  | none => .ok {}
  | some path =>
    match files.read path with
    | .error e => .error (.readDataset path e)
    | .ok text => .ok (Dataset.parse text)

/-- The page of a file, or an empty one. -/
def loadPage (files : Files) : Option String → Except Failure PageFixture
  | none => .ok {}
  | some path =>
    match files.read path with
    | .error e => .error (.readPage path e)
    | .ok text =>
      match PageFixture.parse text with
      | none => .error (.parsePage path)
      | some page => .ok page

/-- The settings of a file that is there. -/
def loadSettings (files : Files) (path : String) : Except Failure Settings :=
  if files.isFile path then
    match files.read path with
    | .error e => .error (.readSettings path e)
    | .ok text =>
      match Settings.parse text with
      | none => .error (.parseSettings path)
      | some settings => .ok settings
  else .ok {}

/-- The settings of a call. -/
def settings (files : Files) (env : Environment) (named : Option String) :
    Except Failure Settings := do
  let path := (Settings.location named files.isThere env).getD ""
  let settings ← loadSettings files path
  match settings.override env with
  | (some e, _) => .error (.overrideSettings e)
  | (none, settings) => .ok settings

/-- Whether a level of detail is known: a name in any case, or a number from one to five. -/
def isLogLevel (level : String) : Bool :=
  match Text.signedWord? level.toList with
  | some n => 1 ≤ n && n ≤ 5
  | none => Text.asciiLower level ∈ ["error", "warn", "info", "debug", "trace"]

/-! ## What commands print -/

/-- A text with blanks in front of it up to a width. -/
def padStart (width : Nat) (text : String) : String :=
  String.ofList (List.replicate (width - text.length) ' ') ++ text

/-- A text with blanks after it up to a width. -/
def padEnd (width : Nat) (text : String) : String :=
  text ++ String.ofList (List.replicate (width - text.length) ' ')

/-- An instruction of a stream, with its number. -/
def instructionLine (number : Nat) (step : Instruction) : String :=
  let action := ((step.get? "action").bind Json.toString?).getD ""
  padStart 4 (toString number) ++ "  " ++ padEnd 12 action ++ " " ++ (Json.object step).compact

/-- The instructions of a stream, the first of which has the given number. -/
def instructionLines (number : Nat) : Program → List String
  | [] => []
  | step :: rest => instructionLine number step :: instructionLines (number + 1) rest

/-- The lines about a stream. -/
def streamLines (output : OutputFormat) (stream : Program) : List String :=
  match output with
  | .json => [stream.toJson.pretty]
  | .human => instructionLines 1 stream ++ [toString stream.length ++ " instruction(s)"]

/-- The line about a status event. -/
def eventLine (clock : Clock) (output : OutputFormat) (e : TimedEvent) : String :=
  match output with
  | .json => e.event.toJson.compact
  | .human => "[" ++ clock.stamp e.instant ++ "] " ++ e.event.describe

/-- The last line about a run. -/
def summaryLine (clock : Clock) (output : OutputFormat) (r : Report) : String :=
  match output with
  | .json => (r.toJson clock.report).compact
  | .human =>
    toString r.completed ++ "/" ++ toString r.total ++ " step(s) completed in " ++
      clock.elapsed (r.finishedAt - r.startedAt)

/-- The failure of a command whose run ended like this. -/
def failureOf : Outcome → Option Failure
  | .completed => none
  | .failed message => some (.runFailed message)
  | .cancelled => some .runStopped

/-! ## Commands -/

/-- The stream of steps that some options describe. -/
def loadStream (files : Files) (options : StreamOptions) : Except Failure Program := do
  let program ← loadProgram files options.steps
  let dataset ← loadDataset files options.rows
  return program.expand dataset.rows options.times

/-- The effect of a command that prints some lines. -/
def printing (files : Files) (texts : List String) : Effect :=
  { printed := texts.map (line 0), files }

/-- The files after a report was written, if it is wanted. -/
def writeReport (around : Surroundings) (report : Report) : Option String → Except Failure Files
  | none => .ok around.files
  | some path =>
    match around.files.write path (report.toJson around.clock.report).pretty with
    | .error e => .error (.writeReport path e)
    | .ok files => .ok files

/-- Rehearses a stream on a page. -/
def rehearse (around : Surroundings) (settings : Settings) (output : OutputFormat)
    (options : RunOptions) : Except Failure Effect := do
  let stream ← loadStream around.files options.stream
  let page ← loadPage around.files options.page
  let policy := settings.policy.on around.runtime
  let r := Rehearsal.ofProgram page.page policy around.interrupt stream
  let atEnd := line r.report.finishedAt
  let events := (Rehearsal.seen settings.statusCapacity r.events).map fun e =>
    line e.instant (eventLine around.clock output e)
  let journal :=
    if options.journal then r.surface.journal.map fun e => atEnd e.toJson.compact else []
  match writeReport around r.report options.report with
  | .error e => return { printed := events ++ journal, failure := some e, files := around.files }
  | .ok files =>
    return { printed := events ++ journal ++ [atEnd (summaryLine around.clock output r.report)]
             failure := failureOf r.report.outcome
             files }

/-- Carries out a command. -/
def perform (around : Surroundings) (settings : Settings) (output : OutputFormat) :
    Task → Except Failure Effect
  | .run options => rehearse around settings output options
  | .expand options => do
    let stream ← loadStream around.files options
    return printing around.files (streamLines output stream)
  | .rows path csvOut => do
    let dataset ← loadDataset around.files (some path)
    if csvOut then return { printed := [⟨0, dataset.toCsv⟩], files := around.files }
    else
      match output with
      | .human => return printing around.files [dataset.summary]
      | .json => return printing around.files [dataset.toJson.pretty]
  | .example compact =>
    let sample := Program.sample.toJson
    .ok (printing around.files [if compact then sample.compact else sample.pretty])

/-- The variables after the local file was loaded, if it can be read. -/
def loaded (files : Files) (env : Environment) : Except Unsettable Environment :=
  match files.read Environment.localPath with
  | .ok text => env.load text
  | .error _ => .ok env

/-- Carries out a call, or tells why it does not. -/
def carryOut (around : Surroundings) (call : Invocation) : Except Failure Effect := do
  let options := call.options
  if !options.debug && !isLogLevel options.logLevel then throw .logLevel
  let settings ← settings around.files around.environment options.settingsPath
  perform around settings options.output call.task

/-- Carries out a call. -/
def execute (around : Surroundings) (call : Invocation) : Effect :=
  match carryOut around call with
  | .ok effect => effect
  | .error e => { failure := some e, files := around.files }

/-- Answers a call with some arguments. The local file is loaded before they are read. -/
def answer (around : Surroundings) (arguments : List String) : Answer :=
  match loaded around.files around.environment with
  | .error cause => .brokenOff cause
  | .ok environment =>
    match Invocation.read arguments with
    | .error usage => .usage usage
    | .ok call => .effect (execute { around with environment } call)

end CommandLine

end FormRehearsal
