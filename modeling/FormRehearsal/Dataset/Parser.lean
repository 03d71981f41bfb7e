/-
# Reading a dataset

The lines of a text end at every carriage return and line feed; blank lines are passed over, and
the first other line is the header. A double quote switches quoting on and off wherever it stands,
two of them within quotes are one quote of the text, and a comma outside quotes separates fields.
A row has a value for every name of the header and no others: missing values are empty, and where a
name is repeated the value of the last column with that name stays.
-/
import FormRehearsal.Dataset.Basic
import FormRehearsal.Text.Blank
import FormRehearsal.Text.Split

namespace FormRehearsal.Dataset

/-! ## One line -/

/-- The pieces with `c` in front of the first one. -/
def consFirst (c : Char) : List (List Char) → List (List Char)
  | [] => [[c]]
  | piece :: pieces => (c :: piece) :: pieces

/-- The fields of a line before their blank ends are dropped; `quoted` tells whether the line goes
on within quotes. -/
def rawFields : Bool → List Char → List (List Char)
  | _, [] => [[]]
  | true, '"' :: '"' :: r => consFirst '"' (rawFields true r)
  | quoted, c :: r =>
    if c = '"' then rawFields (!quoted) r
    else if c = ',' ∧ quoted = false then [] :: rawFields false r
    else consFirst c (rawFields quoted r)

/-- The fields of a line. -/
def splitLine (line : List Char) : List (List Char) := (rawFields false line).map Text.trim

/-! ## The whole text -/

/-- Carriage returns and line feeds. -/
def isLineEnd (c : Char) : Bool := c = '\r' || c = '\n'

/-- The trimmed lines of a text that are not blank. -/
def contentLines (text : List Char) : List (List Char) :=
  ((Text.splitAt isLineEnd text).map Text.trim).filter (!·.isEmpty)

/-- Each name with the value in its column, or the empty text. -/
def columns : List String → List String → List (String × String)
  | [], _ => []
  | name :: names, [] => (name, "") :: columns names []
  | name :: names, value :: values => (name, value) :: columns names values

/-- The fields of a line as strings. -/
def lineFields (line : List Char) : List String := (splitLine line).map String.ofList

/-- The row of a line under a header. -/
def rowOf (header : List String) (line : List Char) : Row :=
  Record.ofPairs (columns header (lineFields line))

/-- The dataset that a text holds. -/
def parse (text : String) : Dataset :=
  match contentLines text.toList with
  | [] => {}
  | first :: rest =>
    let header := lineFields first
    { fields := header.eraseDups, rows := rest.map (rowOf header) }

/-! ## Facts about one line -/

/-- A line always has a first field. -/
theorem rawFields_ne_nil (quoted : Bool) (line : List Char) : rawFields quoted line ≠ [] := by
  have hc : ∀ c pieces, consFirst c pieces ≠ [] := by
    intro c pieces; cases pieces <;> simp [consFirst]
  fun_induction rawFields quoted line with
  | case1 => simp
  | case2 => exact hc _ _
  | case3 _ _ _ ih => exact ih
  | case4 => simp
  | case5 => exact hc _ _

end FormRehearsal.Dataset
