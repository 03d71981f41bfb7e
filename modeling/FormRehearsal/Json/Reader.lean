/-
# Reading JSON

Every reader takes the characters from where it starts and returns what it read with the rest,
which is shorter. A value may hold others down to a given depth; the loops over items and fields
take the reader of the value as an argument. A field whose name is there already replaces its value.

A whole number that 64 bits do not hold, and a number with a point or an exponent, are read as a
double: the leading digits that fit into 64 bits, multiplied or divided by a power of ten.
-/
import FormRehearsal.Json.Failure
import FormRehearsal.Json.Value
import FormRehearsal.Number.Reading

namespace FormRehearsal.Json.Reader

/-- A rest of `s` that is shorter than `s`. -/
abbrev Rest (s : List Char) := { r : List Char // r.length < s.length }

/-- What a reader gives from `s`. -/
abbrev Read (α : Type) (s : List Char) := Except Failure (α × Rest s)

/-- The blanks of JSON. -/
def isSpace (c : Char) : Bool := c = ' ' || c = '\t' || c = '\n' || c = '\r'

/-- The text from its first character that is no blank of JSON. -/
def skipSpace (s : List Char) : List Char := s.dropWhile isSpace

theorem length_dropWhile_le (p : Char → Bool) (s : List Char) :
    (s.dropWhile p).length ≤ s.length :=
  (List.dropWhile_sublist p).length_le

theorem length_skipSpace_le (s : List Char) : (skipSpace s).length ≤ s.length :=
  length_dropWhile_le isSpace s

theorem length_lt_of_skipSpace {s r : List Char} {c : Char} (h : skipSpace s = c :: r) :
    r.length < s.length := by
  have := length_skipSpace_le s
  rw [h, List.length_cons] at this
  omega

/-! ## Strings -/

/-- Four hexadecimal digits; what is read is four bytes long even if they are something else. -/
def hexWord (s : List Char) : Except Failure (Nat × List Char) :=
  match s with
  | a :: b :: c :: d :: r =>
    match Text.hexValue? a, Text.hexValue? b, Text.hexValue? c, Text.hexValue? d with
    | some a, some b, some c, some d => .ok (((a * 16 + b) * 16 + c) * 16 + d, r)
    | _, _, _, _ => .error ⟨.invalidEscape, byteCount s - 4⟩
  | _ => .error (if byteCount s < 4 then ⟨.endInString, 0⟩ else ⟨.invalidEscape, byteCount s - 4⟩)

theorem length_hexWord {s r : List Char} {n : Nat} (h : hexWord s = .ok (n, r)) :
    r.length < s.length := by
  unfold hexWord at h
  split at h
  · split at h
    · cases h; simp only [List.length_cons]; omega
    · cases h
  · cases h

/-- The second half of a character that is written in two halves. -/
def lowHalf (high : Nat) (s : List Char) : Except Failure (Char × List Char) :=
  match hexWord s with
  | .error e => .error e
  | .ok (low, r) =>
    if 0xDC00 ≤ low ∧ low ≤ 0xDFFF then
      .ok (Char.ofNat ((high - 0xD800) * 0x400 + (low - 0xDC00) + 0x10000), r)
    else .error (.before .loneSurrogate r)

theorem length_lowHalf {high : Nat} {s r : List Char} {c : Char}
    (h : lowHalf high s = .ok (c, r)) : r.length < s.length := by
  unfold lowHalf at h
  split at h
  · cases h
  · rename_i hw
    have := length_hexWord hw
    split at h
    · simp only [Except.ok.injEq, Prod.mk.injEq] at h
      exact h.2 ▸ this
    · cases h

/-- The second half of a character with the backslash and the letter before it. -/
def surrogatePair (high : Nat) : List Char → Except Failure (Char × List Char)
  | [] => .error (.before .endInString [])
  | c :: r =>
    if c ≠ '\\' then .error (.on .unfinishedSurrogatePair (c :: r))
    else
      match r with
      | [] => .error (.before .endInString [])
      | d :: t => if d ≠ 'u' then .error (.on .unfinishedSurrogatePair (d :: t)) else lowHalf high t

theorem length_surrogatePair {high : Nat} {s r : List Char} {c : Char}
    (h : surrogatePair high s = .ok (c, r)) : r.length < s.length := by
  unfold surrogatePair at h
  split at h
  · cases h
  · split at h
    · cases h
    · split at h
      · cases h
      · split at h
        · cases h
        · have := length_lowHalf h; simp only [List.length_cons]; omega

/-- The character written with its number. -/
def numbered (s : List Char) : Except Failure (Char × List Char) :=
  match hexWord s with
  | .error e => .error e
  | .ok (n, r) =>
    if 0xDC00 ≤ n ∧ n ≤ 0xDFFF then .error (.before .loneSurrogate r)
    else if 0xD800 ≤ n ∧ n ≤ 0xDBFF then surrogatePair n r
    else .ok (Char.ofNat n, r)

theorem length_numbered {s r : List Char} {c : Char} (h : numbered s = .ok (c, r)) :
    r.length < s.length := by
  unfold numbered at h
  split at h
  · cases h
  · rename_i hw
    have := length_hexWord hw
    split at h
    · cases h
    · split at h
      · have := length_surrogatePair h; omega
      · cases h; assumption

/-- The character that a letter after a backslash stands for. -/
def escapeLetter? : Char → Option Char
  | '"' => some '"'
  | '\\' => some '\\'
  | '/' => some '/'
  | 'b' => some '\x08'
  | 'f' => some '\x0c'
  | 'n' => some '\n'
  | 'r' => some '\r'
  | 't' => some '\t'
  | _ => none

/-- What follows a backslash. -/
def escape : List Char → Except Failure (Char × List Char)
  | [] => .error ⟨.endInString, 0⟩
  | 'u' :: r => numbered r
  | c :: r =>
    match escapeLetter? c with
    | some d => .ok (d, r)
    | none => .error (.on .invalidEscape (c :: r))

theorem length_escape {s r : List Char} {c : Char} (h : escape s = .ok (c, r)) :
    r.length < s.length := by
  unfold escape at h
  split at h
  · cases h
  · have := length_numbered h; simp only [List.length_cons]; omega
  · split at h
    · cases h; simp
    · cases h

/-- The characters of a string up to its closing quote. -/
def stringBody (s : List Char) : Read (List Char) s :=
  match s with
  | [] => .error ⟨.endInString, 0⟩
  | '"' :: r => .ok ([], ⟨r, by simp⟩)
  | '\\' :: r =>
    match h : escape r with
    | .error e => .error e
    | .ok (c, t) =>
      have ht := length_escape h
      match stringBody t with
      | .error e => .error e
      | .ok (cs, ⟨u, hu⟩) => .ok (c :: cs, ⟨u, by simp only [List.length_cons]; omega⟩)
  | c :: r =>
    if c.toNat < 0x20 then .error (.on .controlCharacter (c :: r))
    else
      match stringBody r with
      | .error e => .error e
      | .ok (cs, ⟨u, hu⟩) => .ok (c :: cs, ⟨u, by simp only [List.length_cons]; omega⟩)
termination_by s.length
decreasing_by all_goals simp_all only [List.length_cons]; omega

/-! ## Numbers -/

/-- Appends digits to a number as long as it fits into 64 bits; also gives how many are left. -/
def takeFitting (n : Nat) : List Char → Nat × Nat
  | [] => (n, 0)
  | c :: r =>
    let next := 10 * n + Text.digitValue c
    if next < Text.wordLimit then takeFitting next r else (n, r.length + 1)

/-- The double `10 ^ n`. -/
def tenTo (n : Nat) : Float := Float.ofScientific 1 false n

/-- The highest power of ten that is a double. -/
def topPower : Int := 308

/-- `x * 10 ^ e` by at most two operations on doubles, or none if it is too large. -/
def scaled? (x : Float) (e : Int) : Option Float :=
  if 0 ≤ e then
    if e ≤ topPower then
      let y := x * tenTo e.toNat
      if y.isInf then none else some y
    else if x == 0 then some x else none
  else if -topPower ≤ e then some (x / tenTo (-e).toNat)
  else if -2 * topPower ≤ e then
    some (x / tenTo topPower.toNat / tenTo (-(e + topPower)).toNat)
  else some 0

/-- The double of a significand and an exponent that end in front of `rest`. -/
def finishDouble (negative : Bool) (significand : Nat) (e : Int) (rest : List Char) :
    Except Failure (Number × List Char) :=
  match scaled? significand.toFloat e with
  | none => .error (.before .numberOutOfRange rest)
  | some x => .ok (.double (if negative then -x else x), rest)

/-- The greatest exponent that is taken as it is written, 2^31 - 1. -/
def exponentLimit : Nat := 2147483647

/-- The digits of an exponent: their value, or what follows the digit that makes it too large. -/
def exponentValue (n : Nat) : List Char → Nat × Option (List Char)
  | [] => (n, none)
  | c :: r =>
    if c.isDigit then
      let next := 10 * n + Text.digitValue c
      if next ≤ exponentLimit then exponentValue next r else (n, some r)
    else (n, none)

/-- What follows the letter of an exponent. -/
def exponentPart (negative : Bool) (significand : Nat) (e : Int) (s : List Char) :
    Except Failure (Number × List Char) :=
  let (down, digits) := Binary64.signed s
  match digits with
  | [] => .error (.before .endInValue [])
  | c :: r =>
    if !c.isDigit then .error (.on .invalidNumber (c :: r))
    else
      let rest := digits.dropWhile Char.isDigit
      match exponentValue 0 digits with
      | (n, none) => finishDouble negative significand (if down then e - n else e + n) rest
      | (_, some r) =>
        if significand ≠ 0 ∧ !down then .error (.before .numberOutOfRange r)
        else .ok (.double (if negative then -0.0 else 0.0), rest)

/-- What follows the point of a number. -/
def fractionPart (negative : Bool) (significand : Nat) (dropped : Nat) (s : List Char) :
    Except Failure (Number × List Char) :=
  let digits := s.takeWhile Char.isDigit
  let rest := s.dropWhile Char.isDigit
  if digits.isEmpty then
    if s.isEmpty then .error (.before .endInValue []) else .error (.on .invalidNumber s)
  else
    let (significand, left) := takeFitting significand digits
    let e : Int := dropped - (digits.length - left : Nat)
    match rest with
    | 'e' :: r => exponentPart negative significand e r
    | 'E' :: r => exponentPart negative significand e r
    | r => finishDouble negative significand e r

/-- What follows the digits of a number before its point. -/
def afterWhole (negative : Bool) (digits rest : List Char) : Except Failure (Number × List Char) :=
  let (significand, dropped) := takeFitting 0 digits
  match rest with
  | '.' :: r => fractionPart negative significand dropped r
  | 'e' :: r => exponentPart negative significand dropped r
  | 'E' :: r => exponentPart negative significand dropped r
  | r =>
    let n := Text.numeral digits
    let exact := if negative then (if n = 0 then none else Number.ofInt? (-n)) else Number.ofInt? n
    match exact with
    | some whole => .ok (whole, r)
    | none => finishDouble negative significand dropped r

/-- A number after its sign. -/
def unsigned (negative : Bool) (s : List Char) : Except Failure (Number × List Char) :=
  match s with
  | [] => .error (.before .endInValue [])
  | '0' :: r =>
    match r with
    | c :: _ => if c.isDigit then .error (.on .invalidNumber r) else afterWhole negative ['0'] r
    | [] => afterWhole negative ['0'] r
  | c :: r =>
    if c.isDigit then
      afterWhole negative (c :: r.takeWhile Char.isDigit) (r.dropWhile Char.isDigit)
    else .error (.on .invalidNumber s)

/-- A number. -/
def signedNumber : List Char → Except Failure (Number × List Char)
  | '-' :: r => unsigned true r
  | s => unsigned false s

theorem length_signed_le (s : List Char) : (Binary64.signed s).2.length ≤ s.length := by
  unfold Binary64.signed
  split <;> simp

theorem length_finishDouble {negative : Bool} {m : Nat} {e : Int} {s r : List Char} {n : Number}
    (h : finishDouble negative m e s = .ok (n, r)) : r = s := by
  unfold finishDouble at h
  split at h
  · cases h
  · cases h; rfl

theorem length_exponentPart {negative : Bool} {m : Nat} {e : Int} {s r : List Char} {n : Number}
    (h : exponentPart negative m e s = .ok (n, r)) : r.length ≤ s.length := by
  unfold exponentPart at h
  have hs := length_signed_le s
  have hr := length_dropWhile_le Char.isDigit (Binary64.signed s).2
  simp only at h
  split at h
  · cases h
  · split at h
    · cases h
    · split at h
      · have := length_finishDouble h; subst this; omega
      · split at h
        · cases h
        · cases h; omega

theorem length_fractionPart {negative : Bool} {m d : Nat} {s r : List Char} {n : Number}
    (h : fractionPart negative m d s = .ok (n, r)) : r.length ≤ s.length := by
  unfold fractionPart at h
  have hd := length_dropWhile_le Char.isDigit s
  simp only at h
  split at h
  · split at h <;> cases h
  · split at h
    · rename_i heq; have := length_exponentPart h; rw [heq] at hd; simp at hd; omega
    · rename_i heq; have := length_exponentPart h; rw [heq] at hd; simp at hd; omega
    · have := length_finishDouble h; subst this; exact hd

theorem length_afterWhole {negative : Bool} {digits s r : List Char} {n : Number}
    (h : afterWhole negative digits s = .ok (n, r)) : r.length ≤ s.length := by
  unfold afterWhole at h
  simp only at h
  split at h
  · have := length_fractionPart h; simp only [List.length_cons]; omega
  · have := length_exponentPart h; simp only [List.length_cons]; omega
  · have := length_exponentPart h; simp only [List.length_cons]; omega
  · split at h
    · cases h; exact Nat.le_refl _
    · have := length_finishDouble h; subst this; exact Nat.le_refl _

theorem length_unsigned {negative : Bool} {s r : List Char} {n : Number}
    (h : unsigned negative s = .ok (n, r)) : r.length < s.length := by
  unfold unsigned at h
  split at h
  · cases h
  · split at h
    · split at h
      · cases h
      · have := length_afterWhole h; simp only [List.length_cons] at *; omega
    · have := length_afterWhole h; simp only [List.length_cons] at *; omega
  · split at h
    · rename_i t _ _
      have := length_afterWhole h
      have := length_dropWhile_le Char.isDigit t
      simp only [List.length_cons]; omega
    · cases h

theorem length_signedNumber {s r : List Char} {n : Number} (h : signedNumber s = .ok (n, r)) :
    r.length < s.length := by
  unfold signedNumber at h
  split at h
  · have := length_unsigned h; simp only [List.length_cons]; omega
  · exact length_unsigned h

/-! ## Values -/

/-- The remaining letters of a literal. -/
def literal (value : Json) : List Char → List Char → Except Failure (Json × List Char)
  | [], s => .ok (value, s)
  | _ :: _, [] => .error (.before .endInValue [])
  | c :: letters, d :: r =>
    if d = c then literal value letters r else .error (.on .expectedLiteral (d :: r))

theorem length_literal {value v : Json} {letters s r : List Char}
    (h : literal value letters s = .ok (v, r)) : r.length ≤ s.length := by
  induction letters generalizing s with
  | nil => cases h; exact Nat.le_refl _
  | cons c letters ih =>
    cases s with
    | nil => cases h
    | cons d t =>
      simp only [literal] at h
      split at h
      · have := ih h; simp only [List.length_cons]; omega
      · cases h

/-- A reader of one value. -/
abbrev ValueReader := (s : List Char) → Read Json s

/-- The items of an array from the first one to the closing bracket. -/
def items (value : ValueReader) (s : List Char) : Read (List Json) s :=
  match value s with
  | .error e => .error e
  | .ok (v, ⟨r, hr⟩) =>
    match h : skipSpace r with
    | [] => .error (.before .endInArray [])
    | ']' :: t => .ok ([v], ⟨t, Nat.lt_trans (length_lt_of_skipSpace h) hr⟩)
    | ',' :: t =>
      have ht := length_lt_of_skipSpace h
      match skipSpace t with
      | [] => .error (.before .endInValue [])
      | ']' :: u => .error (.on .trailingComma (']' :: u))
      | _ =>
        match items value t with
        | .error e => .error e
        | .ok (vs, ⟨u, hu⟩) => .ok (v :: vs, ⟨u, by omega⟩)
    | c :: t => .error (.on .expectedCommaOrBracket (c :: t))
termination_by s.length

/-- A name with its quotes, the colon and the value after it. -/
def field (value : ValueReader) (s : List Char) : Read (String × Json) s :=
  match h : skipSpace s with
  | '"' :: r =>
    have hr := length_lt_of_skipSpace h
    match stringBody r with
    | .error e => .error e
    | .ok (name, ⟨t, ht⟩) =>
      match h : skipSpace t with
      | [] => .error (.before .endInObject [])
      | ':' :: u =>
        have hu := length_lt_of_skipSpace h
        match value u with
        | .error e => .error e
        | .ok (v, ⟨w, hw⟩) => .ok ((String.ofList name, v), ⟨w, by omega⟩)
      | c :: u => .error (.on .expectedColon (c :: u))
  | [] => .error (.before .endInValue [])
  | '}' :: r => .error (.on .trailingComma ('}' :: r))
  | c :: r => .error (.on .keyNotString (c :: r))

/-- The fields of an object from the first one to the closing brace, put after those in `before`. -/
def fields (value : ValueReader) (before : Record Json) (s : List Char) : Read (Record Json) s :=
  match field value s with
  | .error e => .error e
  | .ok ((name, v), ⟨r, hr⟩) =>
    match h : skipSpace r with
    | [] => .error (.before .endInObject [])
    | '}' :: t => .ok (before.put name v, ⟨t, Nat.lt_trans (length_lt_of_skipSpace h) hr⟩)
    | ',' :: t =>
      have ht := length_lt_of_skipSpace h
      match fields value (before.put name v) t with
      | .error e => .error e
      | .ok (fs, ⟨u, hu⟩) => .ok (fs, ⟨u, by omega⟩)
    | c :: t => .error (.on .expectedCommaOrBrace (c :: t))
termination_by s.length

/-- What follows an opening bracket. -/
def array (value : ValueReader) (s : List Char) : Read Json s :=
  match h : skipSpace s with
  | [] => .error (.before .endInArray [])
  | ']' :: t => .ok (.array [], ⟨t, length_lt_of_skipSpace h⟩)
  | _ =>
    match items value s with
    | .error e => .error e
    | .ok (vs, r) => .ok (.array vs, r)

/-- What follows an opening brace. -/
def object (value : ValueReader) (s : List Char) : Read Json s :=
  match h : skipSpace s with
  | [] => .error (.before .endInObject [])
  | '}' :: t => .ok (.object [], ⟨t, length_lt_of_skipSpace h⟩)
  | '"' :: _ =>
    match fields value [] s with
    | .error e => .error e
    | .ok (fs, r) => .ok (.object fs, r)
  | c :: t => .error (.on .keyNotString (c :: t))

/-- A value that is no array and no object, starting with the character `c`. -/
def plain (c : Char) (r : List Char) : Except Failure (Json × List Char) :=
  if c = 'n' then literal .null "ull".toList r
  else if c = 't' then literal (.bool true) "rue".toList r
  else if c = 'f' then literal (.bool false) "alse".toList r
  else if c = '"' then
    match stringBody r with
    | .error e => .error e
    | .ok (cs, ⟨t, _⟩) => .ok (.string (String.ofList cs), t)
  else if c = '-' ∨ c.isDigit then
    match signedNumber (c :: r) with
    | .error e => .error e
    | .ok (n, t) => .ok (.number n, t)
  else .error (.on .expectedValue (c :: r))

theorem length_plain {c : Char} {s r : List Char} {v : Json} (h : plain c s = .ok (v, r)) :
    r.length ≤ s.length := by
  unfold plain at h
  split at h
  · exact length_literal h
  split at h
  · exact length_literal h
  split at h
  · exact length_literal h
  split at h
  · split at h
    · cases h
    · cases h; omega
  split at h
  · split at h
    · cases h
    · rename_i hn
      have := length_signedNumber hn
      cases h; simp only [List.length_cons] at this; omega
  · cases h

/-- A value that holds others at most `depth` levels deep. -/
def value : Nat → ValueReader
  | depth, s =>
    match h : skipSpace s with
    | [] => .error (.before .endInValue [])
    | '[' :: r =>
      have hr := length_lt_of_skipSpace h
      match depth with
      | 0 => .error (.on .tooDeep ('[' :: r))
      | depth + 1 =>
        match array (value depth) r with
        | .error e => .error e
        | .ok (v, ⟨t, ht⟩) => .ok (v, ⟨t, by omega⟩)
    | '{' :: r =>
      have hr := length_lt_of_skipSpace h
      match depth with
      | 0 => .error (.on .tooDeep ('{' :: r))
      | depth + 1 =>
        match object (value depth) r with
        | .error e => .error e
        | .ok (v, ⟨t, ht⟩) => .ok (v, ⟨t, by omega⟩)
    | c :: r =>
      match hp : plain c r with
      | .error e => .error e
      | .ok (v, t) =>
        .ok (v, ⟨t, by have := length_plain hp; have := length_lt_of_skipSpace h; omega⟩)

/-- The deepest nesting that is read. -/
def depthLimit : Nat := 127

/-- The value that a whole text stands for. -/
def parseText (text : List Char) : Except Failure Json :=
  match value depthLimit text with
  | .error e => .error e
  | .ok (v, ⟨r, _⟩) =>
    match skipSpace r with
    | [] => .ok v
    | c :: t => .error (.on .trailingCharacters (c :: t))

end FormRehearsal.Json.Reader

namespace FormRehearsal.Json

/-- The value that a whole text stands for, or what is wrong with it and where. -/
def parse (text : String) : Except ReadError Json :=
  (Reader.parseText text.toList).mapError (·.inText text.toList)

end FormRehearsal.Json
