/-
# The characters of YAML

Which characters a document may hold, which of them separate words and which end a line, and what an
escape between double quotes stands for. A character is read together with its place, since places
decide what belongs together.
-/
import FormRehearsal.Yaml.Node

namespace FormRehearsal.Yaml

/-! ## Classes of characters -/

/-- A space or a tab. -/
def isSpace (c : Char) : Bool := c = ' ' || c = '\t'

/-- A character that ends a line. -/
def isBreak (c : Char) : Bool := c ∈ ['\n', '\r', '\u0085', '\u2028', '\u2029']

/-- A character that separates words. -/
def isGap (c : Char) : Bool := isSpace c || isBreak c

/-- A character that a document may hold as it is. -/
def isAllowed (c : Char) : Bool :=
  let n := c.toNat
  c ∈ ['\t', '\n', '\r'] || (0x20 ≤ n && n ≤ 0x7E) || n = 0x85 || (0xA0 ≤ n && n ≤ 0xFFFD) ||
    0x10000 ≤ n

/-! ## Escapes -/

/-- The character that an escape of one letter stands for. -/
def escape? (c : Char) : Option Char :=
  match c with
  | '0' => some '\x00'
  | 'a' => some '\x07'
  | 'b' => some '\x08'
  | 't' => some '\t'
  | '\t' => some '\t'
  | 'n' => some '\n'
  | 'v' => some '\x0b'
  | 'f' => some '\x0c'
  | 'r' => some '\r'
  | 'e' => some '\x1b'
  | ' ' => some ' '
  | '"' => some '"'
  | '/' => some '/'
  | '\\' => some '\\'
  | 'N' => some '\u0085'
  | '_' => some '\u00a0'
  | 'L' => some '\u2028'
  | 'P' => some '\u2029'
  | _ => none

/-- The number of hexadecimal digits after an escape letter. -/
def escapeWidth? (c : Char) : Option Nat :=
  match c with
  | 'x' => some 2
  | 'u' => some 4
  | 'U' => some 8
  | _ => none

/-- The character of a number in hexadecimal digits. -/
def charOf? (digits : List Char) : Option Char :=
  match digitsIn? 16 digits with
  | some n => if n.isValidChar then some (Char.ofNat n) else none
  | none => none

/-! ## Places -/

/-- Where a character stands: the number of lines before its own, and what its line holds before it,
in characters and in bytes of UTF-8. -/
structure Place where
  line : Nat := 0
  column : Nat := 0
  offset : Nat := 0
  deriving DecidableEq, Repr

/-- The place after a character of the line. -/
def Place.after (p : Place) (c : Char) : Place := ⟨p.line, p.column + 1, p.offset + c.utf8Size⟩

/-- The start of the next line. -/
def Place.nextLine (p : Place) : Place := { line := p.line + 1 }

/-- A character and where it stands. -/
structure Placed where
  char : Char
  place : Place
  deriving DecidableEq, Repr

/-- The characters of a text, the first of which stands at a place. A break is a line feed, however
it is written, unless it separates lines or paragraphs only. -/
def placed (p : Place) : List Char → List Placed
  | [] => []
  | '\r' :: '\n' :: r => ⟨'\n', p⟩ :: placed p.nextLine r
  | c :: r =>
    if c = '\r' || c = '\u0085' then ⟨'\n', p⟩ :: placed p.nextLine r
    else if isBreak c then ⟨c, p⟩ :: placed p.nextLine r
    else ⟨c, p⟩ :: placed (p.after c) r

/-- Whether a word ends here. -/
def isWordEnd (s : List Placed) : Bool := s.head?.all fun c => isGap c.char

/-- Whether three times the character stand at the start of a line, and nothing beside them. -/
def isMark (mark : Char) : List Placed → Bool
  | a :: b :: c :: r =>
    a.place.column = 0 && a.char = mark && b.char = mark && c.char = mark && isWordEnd r
  | _ => false

/-- Whether a document starts or ends here. -/
def isDocumentMark (s : List Placed) : Bool := isMark '-' s || isMark '.' s

end FormRehearsal.Yaml
