/-
# Step programs

A program is a list of step objects, read from a JSON array of objects. The names and values of a
step are kept as they are written; they are looked at only when the step's turn comes.
-/
import FormRehearsal.Json.Reader

namespace FormRehearsal

/-- A step as it is written: named JSON values. -/
abbrev Instruction := Record Json

/-- Steps in the order in which they are carried out. -/
abbrev Program := List Instruction

namespace Program

/-- Why a text is no program. -/
inductive ParseError where
  | notJson (error : Json.ReadError)
  | notArray
  | notObject (ordinal : Nat) (found : Json)
  deriving Repr

/-- What kind of value is found, with its article. -/
def kindOf : Json → String
  | .null => "null"
  | .bool _ => "a boolean"
  | .number _ => "a number"
  | .string _ => "a string"
  | .array _ => "an array"
  | .object _ => "an object"

/-- The wording of an error. -/
def ParseError.message : ParseError → String
  | notJson e => e.message
  | notArray => "expected an array of steps"
  | notObject ordinal found =>
    "step " ++ toString ordinal ++ " must be an object, found " ++ kindOf found

/-- The steps among some items, the first of which has the given ordinal. -/
def ofItems (ordinal : Nat) : List Json → Except ParseError Program
  | [] => .ok []
  | .object fields :: r => (ofItems (ordinal + 1) r).map (fields :: ·)
  | other :: _ => .error (.notObject ordinal other)

/-- The program that a text holds. -/
def parse (text : String) : Except ParseError Program :=
  match Json.parse text with
  | .error e => .error (.notJson e)
  | .ok (.array items) => ofItems 1 items
  | .ok _ => .error .notArray

/-- A program as JSON. -/
def toJson (program : Program) : Json := .array (program.map Json.object)

/-- The built-in sample: search for the value of the row and scroll through the results. -/
def sample : Program :=
  let search := Json.string "input[type='search']"
  [ [("action", .string "wait"), ("ms", .ofNat 1000)],
    [("action", .string "highlight"), ("selector", .string "input, textarea"),
      ("durationMs", .ofNat 800)],
    [("action", .string "waitFor"), ("selector", search), ("timeoutMs", .ofNat 5000)],
    [("action", .string "paste"), ("selector", search),
      ("text", .string "\x7b\x7bvalue\x7d\x7d")],
    [("action", .string "keySequence"), ("keys", .array [.string "Enter"]),
      ("delayMs", .ofNat 150)],
    [("action", .string "wait"), ("ms", .ofNat 500)],
    [("action", .string "scroll"), ("y", .ofNat 600), ("behavior", .string "smooth")] ]

end Program

end FormRehearsal
