/-
# Texts between quotes

A text is shown between double quotes so that one can see what it holds: quotes and backslashes are
escaped, and so are characters that cannot be seen or that extend the one before them.

* `shownChar_of_visible` : every other character is shown as itself.
-/
import FormRehearsal.Text.Extending
import FormRehearsal.Text.Invisible

namespace FormRehearsal.Text

/-- The letter that stands for a character after a backslash. -/
def escapeLetter? (c : Char) : Option Char :=
  if c = '"' || c = '\\' then some c
  else if c = '\x00' then some '0'
  else if c = '\n' then some 'n'
  else if c = '\t' then some 't'
  else if c = '\r' then some 'r'
  else none

/-- A character as it is shown between quotes. -/
def shownChar (c : Char) : List Char :=
  match escapeLetter? c with
  | some letter => ['\\', letter]
  | none =>
    if isExtending c || isInvisible c then
      '\\' :: 'u' :: '{' :: (Nat.toDigits 16 c.toNat ++ ['}'])
    else [c]

/-- A text as it is shown between quotes. -/
def shown (s : String) : String := String.ofList ('"' :: (s.toList.flatMap shownChar ++ ['"']))

/-- A character without an escape of its own that can be seen by itself is shown as itself. -/
theorem shownChar_of_visible {c : Char} (h : escapeLetter? c = none) (he : isExtending c = false)
    (hv : isInvisible c = false) : shownChar c = [c] := by
  simp [shownChar, h, he, hv]

end FormRehearsal.Text
