/-
# The local file of variables

A local file may hold variables, one on a line as `key=value`. A variable that is set to a text
already stays as it is, so the environment wins over the file and an earlier line over a later one.
Lines that are blank, start with a number sign, or have no key are passed over. A value between quotes
may hold escaped quotes, line feeds, carriage returns and tabs. No variable can be set whose name or
value holds a NUL character: the program breaks off there.

* `offer_eq_ok_iff`, `offer_eq_error_iff` : what becomes of what is offered.
-/
import FormRehearsal.Settings.Override

namespace FormRehearsal

/-- A variable that cannot be set. -/
structure Unsettable where
  key : String
  value : String
  deriving DecidableEq, Repr

namespace Environment

/-- Where the local file is. -/
def localPath : String := "config/local.env"

/-- The value that is meant by a text between quotes. Each escape is replaced everywhere before the
next one is looked for. -/
def unescape (inner : List Char) : List Char :=
  Text.replacePair '\\' 't' '\t' <| Text.replacePair '\\' 'r' '\r' <|
    Text.replacePair '\\' 'n' '\n' <| Text.replacePair '\\' '"' '"' inner

/-- The value that is meant by a text: between quotes its escapes are replaced. -/
def meaning : List Char → List Char
  | '"' :: c :: r =>
    if (c :: r).getLast? = some '"' then unescape (c :: r).dropLast else '"' :: c :: r
  | value => value

/-- The variable of a line. -/
def entry? (line : List Char) : Option (String × String) :=
  let line := Text.trim line
  if line.isEmpty || line.head? = some '#' then none
  else
    match Text.splitFirst '=' line with
    | none => none
    | some (key, value) =>
      let key := Text.trim key
      if key.isEmpty then none
      else some (String.ofList key, String.ofList (meaning (Text.trim value)))

/-- Whether a variable holds no NUL character, neither in its name nor in its value. -/
def isSettable (entry : String × String) : Bool :=
  !entry.1.toList.contains '\x00' && !entry.2.toList.contains '\x00'

/-- Sets a variable, unless it is set to a text already. -/
def offer (env : Environment) (entry : String × String) : Except Unsettable Environment :=
  if (env.text? entry.1).isSome then .ok env
  else if isSettable entry then .ok (env.put entry.1 entry.2.toByteArray)
  else .error ⟨entry.1, entry.2⟩

/-- Sets one variable after another. -/
def offerAll (env : Environment) (entries : List (String × String)) :
    Except Unsettable Environment := entries.foldlM offer env

/-- The variables of a local file. -/
def entries (text : String) : List (String × String) :=
  (Text.lines text.toList).filterMap entry?

/-- Loads a local file. -/
def load (env : Environment) (text : String) : Except Unsettable Environment :=
  env.offerAll (entries text)

/-! ## Offers -/

/-- What is offered is taken if nothing is there, and makes no difference if a text is. -/
theorem offer_eq_ok_iff {env next : Environment} {entry : String × String} :
    env.offer entry = .ok next ↔
      ((env.text? entry.1).isSome ∧ next = env) ∨
        (env.text? entry.1 = none ∧ isSettable entry ∧
          next = env.put entry.1 entry.2.toByteArray) := by
  cases h : env.text? entry.1 with
  | some value => simpa [offer, h] using eq_comm
  | none =>
    by_cases hs : isSettable entry = true
    · simpa [offer, h, hs] using eq_comm
    · simp [offer, h, hs]

/-- What is offered breaks the program off if nothing is there and it cannot be set. -/
theorem offer_eq_error_iff {env : Environment} {entry : String × String} :
    (∃ e, env.offer entry = .error e) ↔ env.text? entry.1 = none ∧ isSettable entry = false := by
  cases h : env.text? entry.1 with
  | some value => simp [offer, h]
  | none => by_cases hs : isSettable entry = true <;> simp [offer, h, hs]

end Environment

end FormRehearsal
