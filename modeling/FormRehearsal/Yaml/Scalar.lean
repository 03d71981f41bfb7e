/-
# Scalars of YAML

A scalar is a text that is written plainly or between quotes. It may go on for several lines; a gap
between two of its words stands for blanks, for a space, or for line feeds.

* `fold_of_no_break` : blanks on a line stand for themselves.
-/
import FormRehearsal.Yaml.Character

namespace FormRehearsal.Yaml

/-- What a gap between words stands for: blanks on a line for themselves, one line feed for a space,
and several breaks for all of them but a line feed at their start. -/
def fold (gap : List Char) : List Char :=
  match gap.filter isBreak with
  | [] => gap
  | ['\n'] => [' ']
  | '\n' :: breaks => breaks
  | breaks => breaks

/-- Blanks on a line stand for themselves. -/
theorem fold_of_no_break {gap : List Char} (h : ∀ c ∈ gap, isBreak c = false) : fold gap = gap := by
  have : gap.filter isBreak = [] := by simpa [List.filter_eq_nil_iff] using h
  simp [fold, this]

/-! ## Between quotes -/

/-- The text up to the closing double quote, and what follows it. There was a gap before, which an
escaped break joins: of such a gap only further breaks are left. -/
def doubleQuoted (joined : Bool) (gap : List Char) : List Placed → Option (List Char × List Placed)
  | [] => none
  | c :: r =>
    if isGap c.char then doubleQuoted joined (gap ++ [c.char]) r
    else if isDocumentMark (c :: r) then none
    else
      let before := if joined then gap.filter isBreak else fold gap
      let after (text : List Char) (s : Option (List Char × List Placed)) :=
        s.map fun (more, rest) => (before ++ text ++ more, rest)
      if c.char = '"' then some (before, r)
      else if c.char = '\\' then
        match r with
        | [] => none
        | e :: r =>
          if isBreak e.char then after [] (doubleQuoted true [] r)
          else
            match escapeWidth? e.char with
            | some width =>
              if r.length < width then none
              else
                match charOf? ((r.take width).map (·.char)) with
                | some d => after [d] (doubleQuoted false [] (r.drop width))
                | none => none
            | none =>
              match escape? e.char with
              | some d => after [d] (doubleQuoted false [] r)
              | none => none
      else after [c.char] (doubleQuoted false [] r)
termination_by s => s.length
decreasing_by all_goals grind

/-- The text up to the closing single quote, and what follows it; a quote within is doubled. There
was a gap before. -/
def singleQuoted (gap : List Char) : List Placed → Option (List Char × List Placed)
  | [] => none
  | c :: r =>
    if isGap c.char then singleQuoted (gap ++ [c.char]) r
    else if isDocumentMark (c :: r) then none
    else if c.char = '\'' then
      match r with
      | d :: r =>
        if d.char = '\'' then
          (singleQuoted [] r).map fun (more, rest) => (fold gap ++ '\'' :: more, rest)
        else some (fold gap, d :: r)
      | [] => some (fold gap, [])
    else (singleQuoted [] r).map fun (more, rest) => (fold gap ++ c.char :: more, rest)

/-! ## Plain scalars -/

/-- A bracket, or the comma between two parts. -/
def isBracket (c : Char) : Bool := c ∈ [',', '[', ']', '{', '}']

/-- Whether a plain scalar can start here. -/
def startsPlain (inFlow : Bool) : List Placed → Bool
  | [] => false
  | c :: r =>
    if c.char = '-' then r.head?.all (!isSpace ·.char)
    else if c.char = '?' || c.char = ':' then !inFlow && !isWordEnd r
    else !isGap c.char && !isBracket c.char &&
      !(c.char ∈ ['#', '&', '*', '!', '|', '>', '\'', '"', '%', '@', '\x60'])

/-- A plain scalar after a gap, whether it ends after a break, and what follows it. It ends before a
colon that ends a word, a number sign that starts one and the mark of a document; between brackets
before a bracket, and elsewhere before a line that is not indented. -/
def plain (inFlow : Bool) (indent : Nat) (gap : List Char) :
    List Placed → Option (List Char × Bool × List Placed)
  | [] => some ([], gap.any isBreak, [])
  | c :: r =>
    if isGap c.char then
      if c.char = '\t' && gap.any isBreak && c.place.column < indent then none
      else plain inFlow indent (gap ++ [c.char]) r
    else if !gap.isEmpty && (c.char = '#' || isDocumentMark (c :: r) ||
        (!inFlow && c.place.column < indent)) then
      some ([], gap.any isBreak, c :: r)
    else if (c.char = ':' && isWordEnd r) || (inFlow && isBracket c.char) then
      some ([], gap.any isBreak, c :: r)
    else if inFlow && c.char = ':' && r.head?.any (fun d => d.char = '?' || isBracket d.char) then none
    else (plain inFlow indent [] r).map fun (more, ends) => (fold gap ++ c.char :: more, ends)

end FormRehearsal.Yaml
