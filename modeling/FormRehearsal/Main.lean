/-
# The program

Reads the files and variables that a call needs, carries the call out, and prints what comes of it at
the instants at which it appears. Nothing is decided here.
-/
import FormRehearsal.CommandLine.Execution
import FormRehearsal.CommandLine.Reading

namespace FormRehearsal.CommandLine

/-- The names of a path from the root. -/
def absolute (origin : FilePath) (path : String) : FilePath :=
  FilePath.resolve (if FilePath.isAbsolute path then [] else origin) (FilePath.names path)

/-- A path and the paths of the directories on the way to it. -/
def prefixes (path : String) : List String :=
  let names := FilePath.names path
  let start := if FilePath.isAbsolute path then "/" else ""
  (List.range names.length).map fun n => start ++ "/".intercalate (names.take (n + 1))

/-- What is found at a path: a file or a directory. -/
def find (origin : FilePath) (path : String) : IO Files := do
  let nothing : Files := { origin, contents := [] }
  try
    return { nothing with contents := [(absolute origin path, ← IO.FS.readFile path)] }
  catch
    | .inappropriateType _ 21 _ => return { nothing with directories := [absolute origin path] }
    | _ => return nothing

/-- The files that are found in two places. -/
def together (a b : Files) : Files :=
  { a with contents := a.contents ++ b.contents, directories := a.directories ++ b.directories }

/-- The files that are found at some paths and on the way to them. -/
def gather (origin : FilePath) (paths : List String) : IO Files := do
  let found ← (paths.flatMap prefixes).mapM (find origin)
  return found.foldl together { origin, contents := [] }

/-- The variables of some names. None has a NUL character in its name. -/
def look (names : List String) : IO Environment := do
  let found ← (names.filter (!·.toList.contains '\x00')).mapM fun name => do
    return (← IO.getEnv name).map fun value => (name, value.toByteArray)
  return Record.ofPairs (found.filterMap id)

/-- The paths that a task reads or writes. -/
def pathsOf : Task → List String
  | .run o => [o.stream.steps, o.stream.rows, o.page, o.report].filterMap id
  | .expand o => [o.steps, o.rows].filterMap id
  | .rows path _ => [path]
  | .example _ => []

/-- The file that a task writes. -/
def targetOf : Task → Option String
  | .run o => o.report
  | _ => none

/-- How clock readings are written by the program. -/
def clock (serial : Nat) : Clock where
  stamp := timeOfDay
  elapsed := elapsed
  report :=
    { runId := .string ("run-" ++ toString serial)
      instant := .ofNat
      actionInstant := .ofNat
      latency := .ofNat }

/-- Prints texts at their instants. -/
def present (output : IO.FS.Stream) (now : Nat) : List Printed → IO Unit
  | [] => return
  | p :: rest => do
    if now < p.instant then IO.sleep (UInt32.ofNat (p.instant - now))
    output.putStr p.text
    output.flush
    present output (max now p.instant) rest

/-- Tells why a call is not carried out. -/
def explain (usage : Usage) : IO UInt32 := do
  match usage, complaint usage with
  | .version command, _ => IO.println (Usage.versionText command)
  | _, none => if usage.isAnswer then IO.print overview else IO.eprint overview
  | _, some text => IO.eprintln ("error: " ++ text ++ "\n\n" ++ overview)
  return if usage.isAnswer then 0 else 2

/-- The paths that a call needs besides those that every call does, if it is carried out. -/
def pathsBeyond (near : Files) (given : Environment) (arguments : List String) : List String :=
  match loaded near given, Invocation.read arguments with
  | .ok env, .ok call =>
    (Settings.location call.options.settingsPath near.isThere env).toList ++ pathsOf call.task
  | _, _ => []

/-- Shows what came of a call, and leaves the file that it wrote. -/
def finish (effect : Effect) (target : Option String) : IO UInt32 := do
  present (← IO.getStdout) 0 effect.printed
  match target with
  | none => pure ()
  | some path =>
    match effect.files.read path with
    | .ok text => IO.FS.writeFile path text
    | .error _ => pure ()
  match effect.failure with
  | none => return 0
  | some e =>
    IO.eprintln ("Error: " ++ e.message)
    return 1

/-- Answers a call. -/
def call (arguments : List String) : IO UInt32 := do
  let origin := absolute [] (← IO.currentDir).toString
  let near ← gather origin [Environment.localPath, Settings.localPath]
  let own := match near.read Environment.localPath with
    | .ok text => (Environment.entries text).map Prod.fst
    | .error _ => []
  let given ← look ([Settings.pollIntervalKey, Settings.interruptibleKey, "XDG_CONFIG_HOME", "HOME"]
    ++ own)
  let far ← gather origin (pathsBeyond near given arguments)
  let around : Surroundings :=
    { files := together near far
      environment := given
      clock := clock (← IO.rand 0 999999999) }
  match answer around arguments with
  | .brokenOff cause =>
    IO.eprintln ("failed to set environment variable " ++ Text.shown cause.key)
    return 101
  | .usage usage => explain usage
  | .effect effect =>
    finish effect ((Invocation.read arguments).toOption.bind fun call => targetOf call.task)

end FormRehearsal.CommandLine

/-- The program. -/
def main (arguments : List String) : IO UInt32 := FormRehearsal.CommandLine.call arguments
