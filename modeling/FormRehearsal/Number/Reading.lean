/-
# Reading a double from text

The grammar is an optional sign followed by digits that may have a point among, before or behind
them and an exponent after them, or by `inf`, `infinity` or `nan` in any case. The numeral is
rounded to the nearest double.
-/
import FormRehearsal.Number.Binary64

namespace FormRehearsal.Binary64

/-- A sign in front of a text, and what follows it. -/
def signed : List Char → Bool × List Char
  | '-' :: r => (true, r)
  | '+' :: r => (false, r)
  | r => (false, r)

/-- The exponent after the digits: nothing, or `e`, an optional sign and digits to the end. -/
def exponent? : List Char → Option Int
  | [] => some 0
  | c :: r =>
    if c = 'e' ∨ c = 'E' then
      let (negative, digits) := signed r
      if digits.isEmpty || !digits.all Char.isDigit then none
      else
        let n : Int := Text.numeral digits
        some (if negative then -n else n)
    else none

/-- The digits before and behind the point, and what follows them. -/
def digitParts (s : List Char) : List Char × List Char × List Char :=
  let whole := s.takeWhile Char.isDigit
  match s.dropWhile Char.isDigit with
  | '.' :: r => (whole, r.takeWhile Char.isDigit, r.dropWhile Char.isDigit)
  | r => (whole, [], r)

/-- A text that names a double by a word. -/
def named? (negative : Bool) (s : List Char) : Option Binary64 :=
  let word := s.map Char.toLower
  if word = "inf".toList ∨ word = "infinity".toList then some (infinite negative)
  else if word = "nan".toList then some nan
  else none

/-- The double that a whole text stands for. -/
def read? (s : List Char) : Option Binary64 :=
  let (negative, r) := signed s
  let (whole, fraction, rest) := digitParts r
  if whole.isEmpty && fraction.isEmpty then named? negative r
  else (exponent? rest).map fun e =>
    ofDecimal negative (Text.numeral (whole ++ fraction)) (e - fraction.length)

end FormRehearsal.Binary64
