/-
# JSON values

An object keeps the order in which its names first appeared. A number is a whole number of 64 bits,
signed or not, or a double.
-/
import FormRehearsal.Number.Binary64
import FormRehearsal.Record

namespace FormRehearsal

/-- A number in JSON. -/
inductive Json.Number where
  | integer (value : Int) (inRange : -Text.halfWord ≤ value ∧ value < Text.wordLimit)
  | double (value : Float)
  deriving DecidableEq, Repr

/-- A JSON value. -/
inductive Json where
  | null
  | bool (value : Bool)
  | number (value : Json.Number)
  | string (value : String)
  | array (items : List Json)
  | object (fields : List (String × Json))
  deriving Repr, Inhabited

namespace Json

namespace Number

/-- The whole number, if it has 64 bits. -/
def ofInt? (n : Int) : Option Number :=
  if h : -Text.halfWord ≤ n ∧ n < Text.wordLimit then some (.integer n h) else none

/-- The number as an exact double; a whole number goes to the nearest one. -/
def toBinary64 : Number → Binary64
  | .integer n _ => Binary64.ofInt n
  | .double x => Binary64.ofFloat x

/-- The number, if it is whole, not negative and written without point and exponent. -/
def toWord? : Number → Option Nat
  | .integer n _ => if 0 ≤ n then some n.toNat else none
  | .double _ => none

end Number

/-- The whole number, or the double nearest to it where 64 bits do not hold it. -/
def ofInt (n : Int) : Json :=
  match Number.ofInt? n with
  | some whole => .number whole
  | none => .number (.double (Binary64.ofInt n).toFloat)

/-- A natural number as JSON. -/
def ofNat (n : Nat) : Json := ofInt n

/-- A text, or null. -/
def ofString? : Option String → Json
  | some s => .string s
  | none => .null

/-- The text of a string value. -/
def toString? : Json → Option String
  | .string s => some s
  | _ => none

/-- The value of a truth value. -/
def toBool? : Json → Option Bool
  | .bool b => some b
  | _ => none

/-- The whole number of 64 bits without sign. -/
def toWord? : Json → Option Nat
  | .number n => n.toWord?
  | _ => none

/-- The items of an array. -/
def toItems? : Json → Option (List Json)
  | .array items => some items
  | _ => none

/-- The fields of an object. -/
def toFields? : Json → Option (Record Json)
  | .object fields => some fields
  | _ => none

/-- The nesting of arrays and objects, none for a plain value. -/
def depth : Json → Nat
  | .array items => depthOfItems items + 1
  | .object fields => depthOfFields fields + 1
  | _ => 0
where
  /-- The greatest nesting among some items. -/
  depthOfItems : List Json → Nat
    | [] => 0
    | v :: r => max v.depth (depthOfItems r)
  /-- The greatest nesting among some fields. -/
  depthOfFields : List (String × Json) → Nat
    | [] => 0
    | (_, v) :: r => max v.depth (depthOfFields r)

end Json

end FormRehearsal
