/-
# Arguments

A command has options, at most one argument without a name, and possibly commands below it. Options
are written `--name value`, `--name=value`, `-n value`, `-nvalue` or `-n=value`; switches can be put
together as in `-ab`. After `--` nothing is an option. The value of an option that stands apart is
looked at only when the next option or argument comes, or at the end.
-/

namespace FormRehearsal

/-- Why arguments are not carried out. -/
inductive Usage where
  | help
  | version (command : Option String)
  | helpForNothing
  | missingSubcommand
  | missingRequired
  | unknownArgument
  | invalidValue
  | invalidSubcommand
  | conflict
  | tooManyValues
  deriving DecidableEq, Repr

/-- What an option does. -/
inductive OptionKind where
  /-- is there or not -/
  | switch
  /-- has a value that must pass a test -/
  | value (accepts : String → Bool)
  /-- asks for help -/
  | help
  /-- asks for the version -/
  | version

/-- An option of a command. -/
structure OptionSpec where
  name : String
  letter : Option Char := none
  kind : OptionKind

/-- A command. -/
structure Grammar where
  /-- the name of the command, unless it is the whole program -/
  command : Option String
  options : List OptionSpec
  /-- the argument without a name, which is required -/
  positional : Option OptionSpec := none
  subcommands : List String := []

/-- What was read of some arguments. -/
structure Matches where
  /-- the options and their values; a switch has an empty one -/
  found : List (String × String) := []
  /-- the option whose value was not looked at yet; it may still be missing -/
  pending : Option (OptionSpec × Option String) := none
  /-- whether nothing is an option any more -/
  literal : Bool := false
  /-- whether the argument without a name was there -/
  positionalSeen : Bool := false

namespace Matches

/-- Whether an option was there. -/
def has (m : Matches) (name : String) : Bool := m.found.any (·.1 = name)

/-- The value of an option. -/
def value? (m : Matches) (name : String) : Option String :=
  (m.found.find? (·.1 = name)).map Prod.snd

/-- Whether an option still waits for its value. -/
def awaits (m : Matches) : Bool := m.pending.any (·.2.isNone)

/-- Takes in an option with its value, which must not be there twice. -/
def add (m : Matches) (option : OptionSpec) (value : String) : Except Usage Matches :=
  if m.has option.name then .error .conflict
  else
    match option.kind with
    | .value accepts =>
      if accepts value then .ok { m with found := m.found ++ [(option.name, value)] }
      else .error .invalidValue
    | _ => .ok { m with found := m.found ++ [(option.name, value)] }

/-- Looks at the value that is pending. -/
def resolve (m : Matches) : Except Usage Matches :=
  match m.pending with
  | none => .ok m
  | some (_, none) => .error .invalidValue
  | some (option, some value) => { m with pending := none }.add option value

/-- Takes in an option whose value, if it has one, may follow. -/
def enter (g : Grammar) (m : Matches) (option : OptionSpec) : Except Usage Matches := do
  let m ← m.resolve
  match option.kind with
  | .help => .error .help
  | .version => .error (.version g.command)
  | .switch => m.add option ""
  | .value _ => .ok { m with pending := some (option, none) }

/-- Takes in an option with a value in the same argument. -/
def attach (m : Matches) (option : OptionSpec) (value : String) : Except Usage Matches :=
  match option.kind with
  | .value _ => do (← m.resolve).add option value
  | _ => .error .tooManyValues

end Matches

namespace Grammar

/-- The name of a long option and the value in the same argument. -/
def long? (argument : String) : Option (String × Option String) :=
  match argument.toList with
  | '-' :: '-' :: c :: r =>
    let name := (c :: r).takeWhile (· ≠ '=')
    match (c :: r).drop name.length with
    | _ :: value => some (String.ofList name, some (String.ofList value))
    | [] => some (String.ofList name, none)
  | _ => none

/-- The letters of short options. -/
def short? (argument : String) : Option (List Char) :=
  match argument.toList with
  | '-' :: c :: r => if c = '-' then none else some (c :: r)
  | _ => none

/-- The option of a name. -/
def named? (g : Grammar) (name : String) : Option OptionSpec := g.options.find? (·.name = name)

/-- The option of a letter. -/
def lettered? (g : Grammar) (c : Char) : Option OptionSpec :=
  g.options.find? (·.letter = some c)

/-- Reads letters of short options; the rest of the letters may be the value of one. -/
def readLetters (g : Grammar) (m : Matches) : List Char → Except Usage Matches
  | [] => .ok m
  | c :: r =>
    match g.lettered? c with
    | none => .error .unknownArgument
    | some option =>
      match option.kind, r with
      | .value _, '=' :: value => m.attach option (String.ofList value)
      | .value _, d :: value => m.attach option (String.ofList (d :: value))
      | _, r => do readLetters g (← m.enter g option) r

/-- Reads an argument that is no option. -/
def readPositional (g : Grammar) (m : Matches) (argument : String) : Except Usage Matches :=
  match g.positional with
  | some option =>
    if m.positionalSeen then .error .unknownArgument
    else do
      let m ← m.resolve
      .ok { m with pending := some (option, some argument), positionalSeen := true }
  | none =>
    if g.subcommands.isEmpty || (m.literal && g.subcommands.contains argument) then
      .error .unknownArgument
    else .error .invalidSubcommand

/-- Reads one argument that is no subcommand. -/
def readArgument (g : Grammar) (m : Matches) (argument : String) : Except Usage Matches :=
  if m.literal then g.readPositional m argument
  else if argument = "--" then .ok { m with literal := true }
  else
    match long? argument with
    | some (name, value) =>
      match g.named? name, value with
      | none, _ => .error .unknownArgument
      | some option, some value => m.attach option value
      | some option, none => m.enter g option
    | none =>
      match short? argument with
      | some letters => g.readLetters m letters
      | none =>
        match m.pending with
        | some (option, none) => .ok { m with pending := some (option, some argument) }
        | _ => g.readPositional m argument

/-- Whether an argument starts a subcommand. -/
def startsSubcommand (g : Grammar) (m : Matches) (argument : String) : Bool :=
  !m.literal && !m.awaits && g.subcommands.contains argument

/-- Reads arguments up to a subcommand; gives its name and the arguments after it. -/
def readArguments (g : Grammar) (m : Matches) :
    List String → Except Usage (Matches × Option (String × List String))
  | [] => .ok (m, none)
  | argument :: rest =>
    if g.startsSubcommand m argument then .ok (m, some (argument, rest))
    else do readArguments g (← g.readArgument m argument) rest

/-- Reads all arguments of a command that has none below it. -/
def readAll (g : Grammar) (arguments : List String) : Except Usage Matches := do
  let (m, _) ← g.readArguments {} arguments
  let m ← m.resolve
  if g.positional.isSome && !m.positionalSeen then .error .missingRequired else .ok m

end Grammar

end FormRehearsal
