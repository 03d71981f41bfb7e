/-
# Tokens of YAML

A document is read as tokens: its scalars, its marks, and where its sequences and mappings start and
end. Within brackets these are told by the brackets, elsewhere by how far lines are indented. Where a
key may start is remembered, since only the colon after it tells that it is one: the colon must stand
on the same line, at most 1024 bytes of UTF-8 further on.
-/
import FormRehearsal.Yaml.Scalar

namespace FormRehearsal.Yaml

/-- A part of a document. -/
inductive Token where
  | blockSequence
  | blockMapping
  /-- the end of a sequence or a mapping by indentation -/
  | blockEnd
  | flowSequence
  | flowSequenceEnd
  | flowMapping
  | flowMappingEnd
  /-- the dash before an item -/
  | item
  /-- the comma between two parts -/
  | comma
  | key
  | value
  | scalar (text : String) (plain : Bool)
  | documentStart
  | documentEnd
  deriving DecidableEq, Repr

/-- Where a key may have started. -/
structure PossibleKey where
  place : Place
  /-- the number of tokens before it -/
  position : Nat
  /-- whether nothing else can start there -/
  required : Bool
  deriving DecidableEq, Repr

/-- Whether a place is too late for the colon of a key. -/
def PossibleKey.isLate (key : PossibleKey) (place : Place) : Bool :=
  key.place.line < place.line || key.place.offset + 1024 < place.offset

/-- How far the reading of tokens has come. -/
structure Lexer where
  rest : List Placed
  /-- the tokens that were read, the last one first -/
  tokens : List Token := []
  /-- the columns of the sequences and mappings by indentation, the innermost one first -/
  indents : List Nat := []
  /-- where a key may have started since the last bracket -/
  pending : Option PossibleKey := none
  /-- the same before each bracket that is open, the innermost one first -/
  outer : List (Option PossibleKey) := []
  /-- whether a key may start here -/
  keyAllowed : Bool := true

/-- The tokens, the last one first, with one more after the first `position` ones. -/
def insertBefore (position : Nat) (token : Token) (tokens : List Token) : List Token :=
  tokens.take (tokens.length - position) ++ token :: tokens.drop (tokens.length - position)

namespace Lexer

/-! ## What is open -/

/-- Whether brackets are open. -/
def inFlow (l : Lexer) : Bool := !l.outer.isEmpty

/-- The lexer after a token. -/
def emit (l : Lexer) (token : Token) : Lexer := { l with tokens := token :: l.tokens }

/-- Ends the sequences and mappings that are indented further than a column. -/
def leave (l : Lexer) (column : Nat) : Lexer :=
  if l.inFlow then l
  else
    let ended := l.indents.takeWhile (column < ·)
    { l with tokens := ended.map (fun _ => .blockEnd) ++ l.tokens,
             indents := l.indents.drop ended.length }

/-- Ends all sequences and mappings by indentation. -/
def leaveAll (l : Lexer) : Lexer :=
  if l.inFlow then l
  else { l with tokens := l.indents.map (fun _ => .blockEnd) ++ l.tokens, indents := [] }

/-- Starts a sequence or mapping at a column, after a number of tokens, if that column is indented
further. -/
def enter (l : Lexer) (column position : Nat) (token : Token) : Lexer :=
  if !l.inFlow && l.indents.head?.all (· < column) then
    { l with tokens := insertBefore position token l.tokens, indents := column :: l.indents }
  else l

/-! ## Where keys may start -/

/-- Gives up the possible key, unless it is required. -/
def forget (l : Lexer) : Option Lexer :=
  if l.pending.any (·.required) then none else some { l with pending := none }

/-- Remembers that a key may start at a place. -/
def remember (l : Lexer) (place : Place) : Option Lexer :=
  if l.keyAllowed then
    l.forget.map fun l =>
      let required := !l.inFlow && l.indents.head? = some place.column
      { l with pending := some ⟨place, l.tokens.length, required⟩ }
  else some l

/-- A possible key that it is not too late for; for one that is required it must not be too late. -/
def inTime (place : Place) : Option PossibleKey → Option (Option PossibleKey)
  | none => some none
  | some key =>
    if !key.isLate place then some (some key) else if key.required then none else some none

/-- Gives up the keys whose colons are too late. -/
def forgetLate (l : Lexer) (place : Place) : Option Lexer := do
  return { l with pending := ← inTime place l.pending
                  outer := ← l.outer.mapM (inTime place) }

/-! ## Reading one token -/

/-- Skips blanks, comments and breaks; tells whether a key may start afterwards. Where a key may start
outside of brackets, a tab is not skipped. -/
def skip (inFlow : Bool) : Bool → Bool → List Placed → Bool × List Placed
  | keyAllowed, _, [] => (keyAllowed, [])
  | keyAllowed, inComment, c :: r =>
    if isBreak c.char then skip inFlow (keyAllowed || !inFlow) false r
    else if inComment then skip inFlow keyAllowed true r
    else if c.char = ' ' || (c.char = '\t' && (inFlow || !keyAllowed)) then
      skip inFlow keyAllowed false r
    else if c.char = '#' then skip inFlow keyAllowed true r
    else if c.char = '\ufeff' && c.place = {} then skip inFlow keyAllowed false r
    else (keyAllowed, c :: r)

/-- The mark of a document. -/
def readMark (l : Lexer) (token : Token) : Option Lexer :=
  l.leaveAll.forget.map fun l => { l.emit token with keyAllowed := false, rest := l.rest.drop 3 }

/-- A bracket that opens at a place. -/
def readOpening (l : Lexer) (place : Place) (token : Token) : Option Lexer :=
  (l.remember place).map fun l =>
    { l.emit token with pending := none, outer := l.pending :: l.outer, keyAllowed := true
                        rest := l.rest.drop 1 }

/-- A bracket that closes. -/
def readClosing (l : Lexer) (token : Token) : Option Lexer :=
  l.forget.map fun l =>
    { l.emit token with pending := l.outer.head?.getD none, outer := l.outer.drop 1
                        keyAllowed := false, rest := l.rest.drop 1 }

/-- A comma. -/
def readComma (l : Lexer) : Option Lexer :=
  l.forget.map fun l => { l.emit .comma with keyAllowed := true, rest := l.rest.drop 1 }

/-- The dash before an item. -/
def readItem (l : Lexer) (place : Place) : Option Lexer :=
  if !l.inFlow && !l.keyAllowed then none
  else
    (l.enter place.column l.tokens.length .blockSequence).forget.map fun l =>
      { l.emit .item with keyAllowed := true, rest := l.rest.drop 1 }

/-- The mark before a key. -/
def readKey (l : Lexer) (place : Place) : Option Lexer :=
  if !l.inFlow && !l.keyAllowed then none
  else
    (l.enter place.column l.tokens.length .blockMapping).forget.map fun l =>
      { l.emit .key with keyAllowed := !l.inFlow, rest := l.rest.drop 1 }

/-- The colon before a value. -/
def readValue (l : Lexer) (place : Place) : Option Lexer :=
  match l.pending with
  | some key =>
    let l := { l with tokens := insertBefore key.position .key l.tokens }
    let l := l.enter key.place.column key.position .blockMapping
    some { l.emit .value with pending := none, keyAllowed := false, rest := l.rest.drop 1 }
  | none =>
    if !l.inFlow && !l.keyAllowed then none
    else
      let l := l.enter place.column l.tokens.length .blockMapping
      some { l.emit .value with keyAllowed := !l.inFlow, rest := l.rest.drop 1 }

/-- A scalar that a reader takes from the rest after its first character. -/
def readQuoted (l : Lexer) (place : Place) (read : List Placed → Option (List Char × List Placed)) :
    Option Lexer := do
  let l ← l.remember place
  let (text, rest) ← read (l.rest.drop 1)
  return { l.emit (.scalar (String.ofList text) false) with keyAllowed := false, rest }

/-- A plain scalar. -/
def readPlain (l : Lexer) (place : Place) : Option Lexer := do
  let l ← l.remember place
  let indent := (l.indents.head?.map (· + 1)).getD 0
  let (text, endsLine, rest) ← plain l.inFlow indent [] l.rest
  return { l.emit (.scalar (String.ofList text) true) with keyAllowed := endsLine, rest }

/-- Reads the token that starts at a place with a character. -/
def read (l : Lexer) (c : Placed) : Option Lexer :=
  let apart := isWordEnd (l.rest.drop 1)
  if c.char = '%' && c.place.column = 0 then none
  else if isMark '-' l.rest then l.readMark .documentStart
  else if isMark '.' l.rest then l.readMark .documentEnd
  else if c.char = '[' then l.readOpening c.place .flowSequence
  else if c.char = '{' then l.readOpening c.place .flowMapping
  else if c.char = ']' then l.readClosing .flowSequenceEnd
  else if c.char = '}' then l.readClosing .flowMappingEnd
  else if c.char = ',' then l.readComma
  else if c.char = '-' && apart then l.readItem c.place
  else if c.char = '?' && (l.inFlow || apart) then l.readKey c.place
  else if c.char = ':' && (l.inFlow || apart) then l.readValue c.place
  else if c.char = '\'' then l.readQuoted c.place (singleQuoted [])
  else if c.char = '"' then l.readQuoted c.place (doubleQuoted false [])
  else if startsPlain l.inFlow l.rest then l.readPlain c.place
  else none

/-- Reads all tokens; the number bounds how many there are. -/
def readAll : Nat → Lexer → Option (List Token)
  | 0, _ => none
  | bound + 1, l =>
    match skip l.inFlow l.keyAllowed false l.rest with
    | (_, []) => l.leaveAll.forget.map (·.tokens.reverse)
    | (keyAllowed, c :: r) => do
      let l ← { l with keyAllowed, rest := c :: r }.forgetLate c.place
      readAll bound (← (l.leave c.place.column).read c)

end Lexer

/-- The tokens of a text. -/
def tokens? (s : List Char) : Option (List Token) :=
  Lexer.readAll (s.length + 1) { rest := placed {} s }

end FormRehearsal.Yaml
