/-
# Reading YAML

Documents from their tokens. Scalars may be plain or between quotes; sequences and mappings may be
indented or stand between brackets, so texts in JSON are part of it. Anchors, tags, block scalars and
directives are not read. A text holds one document. Every reader gives the tokens that follow what it
read, and takes a bound on its steps that the number of tokens provides.

* `parse_of_not_isAllowed` : a text with a character that must not be there is not read.
-/
import FormRehearsal.Yaml.Token

namespace FormRehearsal.Yaml

/-- An empty document, where one of some tokens follows at once. -/
def orEmpty (ends tokens : List Token) (read : List Token → Option (Yaml × List Token)) :
    Option (Yaml × List Token) :=
  if tokens.head?.any ends.contains then some (empty, tokens) else read tokens

/-- The tokens after a comma; nothing need be before the first part. -/
def afterComma (first : Bool) : List Token → Option (List Token)
  | .comma :: r => if first then some (.comma :: r) else some r
  | r => if first then some r else none

/-- The document after a colon, if there is one. -/
def afterColon (ends : List Token) (read : List Token → Option (Yaml × List Token)) :
    List Token → Option (Yaml × List Token)
  | .value :: r => orEmpty ends r read
  | r => some (empty, r)

/-! ## Between brackets -/

mutual

/-- A scalar or a document between brackets. -/
def flowNode : Nat → List Token → Option (Yaml × List Token)
  | 0, _ => none
  | bound + 1, tokens =>
    match tokens with
    | .scalar text plain :: r => some (.scalar text plain, r)
    | .flowSequence :: r => (flowItems bound true r).map fun (items, r) => (.sequence items, r)
    | .flowMapping :: r => (flowEntries bound true r).map fun (entries, r) => (.mapping entries, r)
    | _ => none

/-- The items up to a closing bracket. An item may be the only entry of a mapping. -/
def flowItems : Nat → Bool → List Token → Option (List Yaml × List Token)
  | 0, _, _ => none
  | _ + 1, _, .flowSequenceEnd :: r => some ([], r)
  | bound + 1, first, tokens => do
    match ← afterComma first tokens with
    | .flowSequenceEnd :: r => return ([], r)
    | .key :: r =>
      let (key, r) ← flowNode bound r
      let (value, r) ← afterColon [.comma, .flowSequenceEnd] (flowNode bound) r
      let (items, r) ← flowItems bound false r
      return (.mapping [(key, value)] :: items, r)
    | r =>
      let (item, r) ← flowNode bound r
      let (items, r) ← flowItems bound false r
      return (item :: items, r)

/-- The entries up to a closing brace. -/
def flowEntries : Nat → Bool → List Token → Option (List (Yaml × Yaml) × List Token)
  | 0, _, _ => none
  | _ + 1, _, .flowMappingEnd :: r => some ([], r)
  | bound + 1, first, tokens => do
    match ← afterComma first tokens with
    | .flowMappingEnd :: r => return ([], r)
    | .key :: r =>
      let (key, r) ← orEmpty [.value, .comma, .flowMappingEnd] r (flowNode bound)
      let (value, r) ← afterColon [.comma, .flowMappingEnd] (flowNode bound) r
      let (entries, r) ← flowEntries bound false r
      return ((key, value) :: entries, r)
    | r =>
      let (key, r) ← flowNode bound r
      let (entries, r) ← flowEntries bound false r
      return ((key, empty) :: entries, r)

end

/-! ## By indentation -/

mutual

/-- A document by indentation, or one of those that may be between brackets. -/
def blockNode : Nat → List Token → Option (Yaml × List Token)
  | 0, _ => none
  | bound + 1, tokens =>
    match tokens with
    | .blockSequence :: r => (blockItems bound r).map fun (items, r) => (.sequence items, r)
    | .blockMapping :: r => (blockEntries bound r).map fun (entries, r) => (.mapping entries, r)
    | r => flowNode bound r

/-- The items of a sequence, up to its end. -/
def blockItems : Nat → List Token → Option (List Yaml × List Token)
  | 0, _ => none
  | bound + 1, tokens =>
    match tokens with
    | .blockEnd :: r => some ([], r)
    | .item :: r => do
      let (item, r) ← orEmpty [.item, .blockEnd] r (blockNode bound)
      let (items, r) ← blockItems bound r
      return (item :: items, r)
    | _ => none

/-- A key or a value; the items of a sequence may stand at the column of its key. -/
def entryNode : Nat → List Token → Option (Yaml × List Token)
  | 0, _ => none
  | bound + 1, tokens =>
    match tokens with
    | .item :: _ => (entryItems bound tokens).map fun (items, r) => (.sequence items, r)
    | r => blockNode bound r

/-- The items of a sequence at the column of its key. -/
def entryItems : Nat → List Token → Option (List Yaml × List Token)
  | 0, _ => none
  | bound + 1, tokens =>
    match tokens with
    | .item :: r => do
      let (item, r) ← orEmpty [.item, .key, .value, .blockEnd] r (blockNode bound)
      let (items, r) ← entryItems bound r
      return (item :: items, r)
    | r => some ([], r)

/-- The entries of a mapping, up to its end. -/
def blockEntries : Nat → List Token → Option (List (Yaml × Yaml) × List Token)
  | 0, _ => none
  | bound + 1, tokens =>
    match tokens with
    | .blockEnd :: r => some ([], r)
    | .key :: r => do
      let (key, r) ← orEmpty [.key, .value, .blockEnd] r (entryNode bound)
      let (value, r) ← afterColon [.key, .value, .blockEnd] (entryNode bound) r
      let (entries, r) ← blockEntries bound r
      return ((key, value) :: entries, r)
    | _ => none

end

/-! ## Documents -/

/-- The only document of some tokens. -/
def ofTokens? (tokens : List Token) : Option Yaml :=
  let bound := 4 * tokens.length + 4
  let read := match tokens with
    | [] => some (empty, [])
    | .documentStart :: r =>
      if r.isEmpty then some (empty, [])
      else orEmpty [.documentStart, .documentEnd] r (blockNode bound)
    | r => blockNode bound r
  match read with
  | some (v, r) => if r.all (· = .documentEnd) then some v else none
  | none => none

/-- The text without the mark of its encoding. -/
def dropEncodingMark : List Char → List Char
  | '\ufeff' :: r => r
  | r => r

/-- The document that a text holds. -/
def parse (text : String) : Option Yaml :=
  let s := dropEncodingMark text.toList
  if s.all isAllowed then (tokens? s).bind ofTokens? else none

/-- A text with a character that must not be there is not read. -/
theorem parse_of_not_isAllowed {text : String}
    (h : (dropEncodingMark text.toList).all isAllowed = false) : parse text = none := by
  simp [parse, h]

end FormRehearsal.Yaml
