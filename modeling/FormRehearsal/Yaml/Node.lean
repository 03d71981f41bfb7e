/-
# YAML documents

A document is a tree of scalars, sequences and mappings. A scalar is a text that was written plainly
or between quotes; what it stands for depends on what is wanted. Only a plain scalar can be a number,
a truth value or nothing, while any scalar can be a text. An empty plain scalar is also an empty
mapping or sequence.

* `toWord?_quoted`, `toBool?_quoted` : a scalar between quotes is a text only.
-/
import FormRehearsal.Text.Numeral

namespace FormRehearsal

/-- A document. -/
inductive Yaml where
  | scalar (text : String) (plain : Bool)
  | sequence (items : List Yaml)
  | mapping (entries : List (Yaml × Yaml))
  deriving Repr

namespace Yaml

/-- A document without content. -/
def empty : Yaml := .scalar "" true

/-! ## What a document stands for -/

/-- The items of a sequence. -/
def toItems? : Yaml → Option (List Yaml)
  | sequence items => some items
  | scalar "" true => some []
  | _ => none

/-- A text. -/
def toText? : Yaml → Option String
  | scalar text _ => some text
  | _ => none

/-- The entries of a mapping whose keys are texts. -/
def toEntries? : Yaml → Option (List (String × Yaml))
  | mapping entries => entries.mapM fun (key, value) => key.toText?.map (·, value)
  | scalar "" true => some []
  | _ => none

/-- Whether a document stands for nothing. -/
def isNothing : Yaml → Bool
  | scalar text true => text ∈ ["", "~", "null", "Null", "NULL"]
  | _ => false

/-- A text or nothing. -/
def toOptionalText? (v : Yaml) : Option (Option String) :=
  if v.isNothing then some none else v.toText?.map some

/-- A truth value. -/
def toBool? : Yaml → Option Bool
  | scalar text true =>
    if text ∈ ["true", "True", "TRUE"] then some true
    else if text ∈ ["false", "False", "FALSE"] then some false
    else none
  | _ => none

/-- The value of a run of digits in a base up to sixteen, if it fits into 64 bits. -/
def digitsIn? (base : Nat) (digits : List Char) : Option Nat :=
  let values := digits.map fun c => (Text.hexValue? c).filter (· < base)
  if digits.isEmpty || values.any Option.isNone then none
  else
    let n := values.foldl (fun n d => base * n + d.getD 0) 0
    if n < Text.wordLimit then some n else none

/-- A numeral without its sign: decimal without needless zeros, or in another base. -/
def unsigned? : List Char → Option Nat
  | '0' :: 'x' :: digits => digitsIn? 16 digits
  | '0' :: 'o' :: digits => digitsIn? 8 digits
  | '0' :: 'b' :: digits => digitsIn? 2 digits
  | ['0'] => some 0
  | '0' :: _ => none
  | digits => digitsIn? 10 digits

/-- A whole number of 64 bits that is not negative. -/
def toWord? : Yaml → Option Nat
  | scalar text true =>
    match text.toList with
    | '+' :: r => unsigned? r
    | r => unsigned? r
  | _ => none

/-! ## Entries of a mapping -/

/-- The values under a name. -/
def valuesOf (name : String) (entries : List (String × Yaml)) : List Yaml :=
  (entries.filter (·.1 = name)).map Prod.snd

/-- An entry that has a value of its own when it is missing; it must not be there twice. -/
def entryOr {α : Type} (name : String) (byDefault : α) (read : Yaml → Option α)
    (entries : List (String × Yaml)) : Option α :=
  match valuesOf name entries with
  | [] => some byDefault
  | [v] => read v
  | _ => none

/-- An entry that must be there. -/
def entry? {α : Type} (name : String) (read : Yaml → Option α) (entries : List (String × Yaml)) :
    Option α :=
  match valuesOf name entries with
  | [v] => read v
  | _ => none

/-! ## Scalars between quotes -/

@[simp] theorem toWord?_quoted (text : String) : (scalar text false).toWord? = none := rfl

@[simp] theorem toBool?_quoted (text : String) : (scalar text false).toBool? = none := rfl

end Yaml

end FormRehearsal
