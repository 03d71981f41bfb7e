/-
# Writing JSON

`compact` writes without spaces; `pretty` starts a line for every item and field, two spaces
further in at each level. In a string only the quote, the backslash and the characters below the
space are escaped.
-/
import FormRehearsal.Json.Value
import FormRehearsal.Number.Layout

namespace FormRehearsal.Json

/-! ## Strings and numbers -/

/-- A character within a string. -/
def escaped (c : Char) : List Char :=
  if c = '"' then ['\\', '"']
  else if c = '\\' then ['\\', '\\']
  else if c = '\x08' then ['\\', 'b']
  else if c = '\x0c' then ['\\', 'f']
  else if c = '\n' then ['\\', 'n']
  else if c = '\r' then ['\\', 'r']
  else if c = '\t' then ['\\', 't']
  else if c.toNat < 0x20 then '\\' :: 'u' :: Text.hexDigits 4 c.toNat
  else [c]

/-- A string between its quotes. -/
def quoted (s : String) : List Char := '"' :: (s.toList.flatMap escaped ++ ['"'])

/-- The digits of a whole number after its sign. -/
def integerText (n : Int) : List Char :=
  if n < 0 then '-' :: Text.digitsOf n.natAbs else Text.digitsOf n.natAbs

/-- The text of a number. -/
def Number.text : Number → List Char
  | .integer n _ => integerText n
  | .double x => Layout.json.binary64 (Binary64.ofFloat x)

/-! ## Values without spaces -/

mutual

/-- A value without spaces. -/
def compactText : Json → List Char
  | .null => "null".toList
  | .bool true => "true".toList
  | .bool false => "false".toList
  | .number n => n.text
  | .string s => quoted s
  | .array items => '[' :: (compactItems items ++ [']'])
  | .object fields => '{' :: (compactFields fields ++ ['}'])

/-- Items with commas between them. -/
def compactItems : List Json → List Char
  | [] => []
  | [v] => compactText v
  | v :: w :: r => compactText v ++ ',' :: compactItems (w :: r)

/-- Fields with commas between them. -/
def compactFields : List (String × Json) → List Char
  | [] => []
  | [(k, v)] => quoted k ++ ':' :: compactText v
  | (k, v) :: p :: r => quoted k ++ ':' :: compactText v ++ ',' :: compactFields (p :: r)

end

/-- The text of a value without spaces. -/
def compact (v : Json) : String := String.ofList (compactText v)

/-! ## Values over several lines -/

/-- The start of a line at a level. -/
def lineStart (level : Nat) : List Char := '\n' :: List.replicate (2 * level) ' '

mutual

/-- A value whose inner lines lie deeper than `level`. -/
def prettyText (level : Nat) : Json → List Char
  | .array [] => ['[', ']']
  | .array (v :: r) => '[' :: (prettyItems (level + 1) (v :: r) ++ lineStart level ++ [']'])
  | .object [] => ['{', '}']
  | .object (p :: r) => '{' :: (prettyFields (level + 1) (p :: r) ++ lineStart level ++ ['}'])
  | .null => "null".toList
  | .bool true => "true".toList
  | .bool false => "false".toList
  | .number n => n.text
  | .string s => quoted s

/-- Items, each on a line of its own. -/
def prettyItems (level : Nat) : List Json → List Char
  | [] => []
  | [v] => lineStart level ++ prettyText level v
  | v :: w :: r => lineStart level ++ prettyText level v ++ ',' :: prettyItems level (w :: r)

/-- Fields, each on a line of its own. -/
def prettyFields (level : Nat) : List (String × Json) → List Char
  | [] => []
  | [(k, v)] => lineStart level ++ quoted k ++ ':' :: ' ' :: prettyText level v
  | (k, v) :: p :: r =>
    lineStart level ++ quoted k ++ ':' :: ' ' :: prettyText level v ++ ',' ::
      prettyFields level (p :: r)

end

/-- The text of a value over several lines. -/
def pretty (v : Json) : String := String.ofList (prettyText 0 v)

end FormRehearsal.Json
