/-
# Clock readings and help in words

How long something took and what time it is on the clock of a run, and what is shown to someone who
asks for help or called the program wrongly.
-/
import FormRehearsal.CommandLine.Invocation

namespace FormRehearsal.CommandLine

/-! ## Clock readings -/

/-- A number with two digits at least. -/
def twoDigits (n : Nat) : String := if n < 10 then "0" ++ toString n else toString n

/-- The time of day on a clock that started at midnight. -/
def timeOfDay (ms : Nat) : String :=
  let seconds := ms / 1000
  twoDigits (seconds / 3600 % 24) ++ ":" ++ twoDigits (seconds / 60 % 60) ++ ":" ++
    twoDigits (seconds % 60)

/-- The units of time in seconds, from the longest one; those with a plural are words. A month is a
twelfth of a year, and a year has 365 days and a quarter. -/
def units : List (Nat × String × String) :=
  [(31557600, "year", "years"), (2630016, "month", "months"), (86400, "day", "days"),
    (3600, "h", "h"), (60, "m", "m"), (1, "s", "s")]

/-- Whole units of some seconds, from the longest one; units that are not needed are left out. -/
def parts (seconds : Nat) : List (Nat × String × String) → List String
  | [] => []
  | (size, one, many) :: rest =>
    let n := seconds / size
    let others := parts (seconds % size) rest
    if n = 0 then others else (toString n ++ if n = 1 then one else many) :: others

/-- A length of time. -/
def elapsed (ms : Nat) : String :=
  let rest := if ms % 1000 = 0 then [] else [toString (ms % 1000) ++ "ms"]
  match parts (ms / 1000) units ++ rest with
  | [] => "0s"
  | words => " ".intercalate words

/-! ## Help -/

/-- What the program can be called for. -/
def overview : String :=
  "Usage: formpilot [OPTIONS] <COMMAND>\n\n" ++
  "Commands:\n" ++
  "  run      Expand a step program over a dataset and run it against a rehearsal page\n" ++
  "  expand   Print the instruction stream a program expands to\n" ++
  "  rows     Parse a CSV dataset and summarise it\n" ++
  "  example  Print the built-in example program\n" ++
  "  help     Print this message\n\n" ++
  "Options:\n" ++
  "  -c, --config <FILE>        Configuration file path\n" ++
  "  -l, --log-level <LEVEL>    Log level\n" ++
  "  -d, --debug                Enable debug mode\n" ++
  "      --log-format <FORMAT>  Log line format: text or json\n" ++
  "  -o, --output <FORMAT>      Output format: human or json\n" ++
  "  -h, --help                 Print help\n" ++
  "  -V, --version              Print version\n"

/-- What is wrong with a call, unless it asked for something. -/
def complaint : Usage → Option String
  | .help | .version _ | .helpForNothing => none
  | .missingSubcommand => some "a command is missing"
  | .missingRequired => some "a required argument is missing"
  | .unknownArgument => some "there is an unknown argument"
  | .invalidValue => some "an option has no value or a wrong one"
  | .invalidSubcommand => some "there is no such command"
  | .conflict => some "an option is there twice"
  | .tooManyValues => some "a switch has a value"

end FormRehearsal.CommandLine
