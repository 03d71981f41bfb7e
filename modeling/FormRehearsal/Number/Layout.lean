/-
# Doubles as text

Between the scientific exponents -5 and 15 a double is written positionally and always with a
point; outside them its digits are followed by the exponent with its sign. These decisions are the
record `Layout.json`; what is not finite has a text of its own.
-/
import FormRehearsal.Number.Shortest

namespace FormRehearsal

/-- How a numeral is written. -/
structure Layout where
  /-- the lowest scientific exponent that is written positionally -/
  lowest : Int
  /-- the highest one -/
  highest : Int
  /-- what stands for an infinity or for no number -/
  unwritable : List Char

namespace Layout

/-- The layout of numbers in JSON. -/
def json : Layout := ⟨-5, 15, "null".toList⟩

/-- Digits with a point: `exponent` is that of the first digit. -/
def positional (digits : List Char) (exponent : Int) : List Char :=
  if exponent < 0 then
    '0' :: '.' :: (List.replicate ((-exponent).toNat - 1) '0' ++ digits)
  else
    let whole := exponent.toNat + 1
    if digits.length ≤ whole then
      digits ++ List.replicate (whole - digits.length) '0' ++ ['.', '0']
    else digits.take whole ++ '.' :: digits.drop whole

/-- Digits with one of them before the point, and the exponent with its sign. -/
def scientific (digits : List Char) (exponent : Int) : List Char :=
  let mantissa := match digits with
    | d :: e :: r => d :: '.' :: e :: r
    | short => short
  let sign := if exponent < 0 then '-' else '+'
  mantissa ++ 'e' :: sign :: Text.digitsOf exponent.natAbs

/-- The text of a numeral above zero. -/
def numeral (layout : Layout) (n : Numeral) : List Char :=
  let digits := Text.digitsOf n.digits
  let exponent := n.exponent + digits.length - 1
  if layout.lowest ≤ exponent ∧ exponent ≤ layout.highest then positional digits exponent
  else scientific digits exponent

/-- The text of a double. -/
def binary64 (layout : Layout) : Binary64 → List Char
  | .finite negative m q =>
    let digits := if m = 0 then ['0', '.', '0'] else layout.numeral (Binary64.shortest m q)
    if negative then '-' :: digits else digits
  | _ => layout.unwritable

end Layout

end FormRehearsal
