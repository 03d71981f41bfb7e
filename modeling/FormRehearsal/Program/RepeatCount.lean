/-
# Repeat counts

How often a row's copy of a program is repeated: at least once, and below 2^64 times. The text of a
count is read leniently: after blanks and a plus sign its leading digits count, and everything that
gives no number in that range means once.
-/
import FormRehearsal.Text.Blank
import FormRehearsal.Text.Numeral

namespace FormRehearsal

/-- A number of repetitions. -/
structure RepeatCount where
  times : Nat
  pos : 0 < times := by decide
  lt : times < Text.wordLimit := by decide
  deriving DecidableEq, Repr

namespace RepeatCount

/-- A single time. -/
def once : RepeatCount := { times := 1 }

/-- The count of this many times; where it is out of range, once. -/
def ofNat (n : Nat) : RepeatCount :=
  if h : 0 < n ∧ n < Text.wordLimit then ⟨n, h.1, h.2⟩ else once

/-- The text without a plus sign at its start. -/
def dropPlus : List Char → List Char
  | '+' :: r => r
  | r => r

/-- The count that a text stands for. A minus sign leaves no leading digits, which means once. -/
def parseText (s : List Char) : RepeatCount :=
  ofNat (Text.numeral ((dropPlus (Text.trimStart s)).takeWhile Char.isDigit))

/-- `parseText` on strings. -/
def parse (s : String) : RepeatCount := parseText s.toList

/-- A number in range is the count of that many times. -/
theorem times_ofNat {n : Nat} (h₀ : 0 < n) (h₁ : n < Text.wordLimit) : (ofNat n).times = n := by
  simp [ofNat, h₀, h₁]

end RepeatCount

end FormRehearsal
