/-
# Why and where a text is not JSON

A failure knows its cause and how many bytes of the text were not yet consumed. From these the place
is found: a line starts after every line feed, and the column counts the bytes of the line that were
consumed.
-/

namespace FormRehearsal.Json

/-- What is wrong with a text. -/
inductive Cause where
  | endInValue
  | endInArray
  | endInObject
  | endInString
  | expectedValue
  | expectedLiteral
  | expectedColon
  | expectedCommaOrBracket
  | expectedCommaOrBrace
  | keyNotString
  | trailingComma
  | trailingCharacters
  | invalidNumber
  | numberOutOfRange
  | invalidEscape
  | unfinishedSurrogatePair
  | loneSurrogate
  | controlCharacter
  | tooDeep
  deriving DecidableEq, Repr

/-- The wording of a cause. -/
def Cause.message : Cause → String
  | endInValue => "EOF while parsing a value"
  | endInArray => "EOF while parsing a list"
  | endInObject => "EOF while parsing an object"
  | endInString => "EOF while parsing a string"
  | expectedValue => "expected value"
  | expectedLiteral => "expected ident"
  | expectedColon => "expected `:`"
  | expectedCommaOrBracket => "expected `,` or `]`"
  | expectedCommaOrBrace => "expected `,` or `\x7d`"
  | keyNotString => "key must be a string"
  | trailingComma => "trailing comma"
  | trailingCharacters => "trailing characters"
  | invalidNumber => "invalid number"
  | numberOutOfRange => "number out of range"
  | invalidEscape => "invalid escape"
  | unfinishedSurrogatePair => "unexpected end of hex escape"
  | loneSurrogate => "lone leading surrogate in hex escape"
  | controlCharacter => "control character (\\u0000-\\u001F) found while parsing a string"
  | tooDeep => "recursion limit exceeded"

/-- The number of bytes of a text. -/
def byteCount (s : List Char) : Nat := s.foldr (fun c n => c.utf8Size + n) 0

/-- A cause, and the number of bytes that were left when it was found. -/
structure Failure where
  cause : Cause
  left : Nat
  deriving DecidableEq, Repr

/-- The failure found in front of `rest`. -/
def Failure.before (cause : Cause) (rest : List Char) : Failure := ⟨cause, byteCount rest⟩

/-- The failure found on looking at the first byte of `rest`. -/
def Failure.on (cause : Cause) (rest : List Char) : Failure := ⟨cause, byteCount rest - 1⟩

/-- A place in a text. -/
structure Place where
  line : Nat
  column : Nat
  deriving DecidableEq, Repr

/-- The place reached from `place` after `n` bytes. -/
def Place.advance (place : Place) : List Char → Nat → Place
  | _, 0 => place
  | [], _ => place
  | c :: r, n =>
    if c = '\n' then advance ⟨place.line + 1, 0⟩ r (n - 1)
    else advance ⟨place.line, place.column + min n c.utf8Size⟩ r (n - c.utf8Size)

/-- A cause at its place. -/
structure ReadError where
  cause : Cause
  place : Place
  deriving DecidableEq, Repr

/-- The failure with its place in the text. -/
def Failure.inText (failure : Failure) (text : List Char) : ReadError :=
  ⟨failure.cause, Place.advance ⟨1, 0⟩ text (byteCount text - failure.left)⟩

/-- The wording of an error with its place. -/
def ReadError.message (e : ReadError) : String :=
  e.cause.message ++ " at line " ++ toString e.place.line ++ " column " ++ toString e.place.column

end FormRehearsal.Json
