/-
# Writing a dataset

One record for the field names and one for every row, each ended by a line feed. A field is put
between quotes, with its own quotes doubled, when it holds a comma, a quote or a line end; a record
that would be an empty line is written as a pair of quotes.
-/
import FormRehearsal.Dataset.Parser

namespace FormRehearsal.Dataset

/-- Whether a field has to be put between quotes. -/
def needsQuotes (field : List Char) : Bool :=
  field.any fun c => c = ',' || c = '"' || isLineEnd c

/-- A text with every quote doubled. -/
def doubleQuotes (s : List Char) : List Char :=
  s.flatMap fun c => if c = '"' then ['"', '"'] else [c]

/-- A field as it is written. -/
def writeField (field : List Char) : List Char :=
  if needsQuotes field then '"' :: (doubleQuotes field ++ ['"']) else field

/-- A record without its line end. -/
def writeRecord (record : List (List Char)) : List Char :=
  match Text.joinWith [','] (record.map writeField) with
  | [] => ['"', '"']
  | line => line

/-- The values of a row under the names of a dataset; a missing one is empty. -/
def rowValues (fields : List String) (row : Row) : List String :=
  fields.map fun name => (row.get? name).getD ""

/-- The records of a dataset. -/
def records (d : Dataset) : List (List String) := d.fields :: d.rows.map (rowValues d.fields)

/-- The text of a dataset. -/
def toCsv (d : Dataset) : String :=
  String.ofList (d.records.flatMap fun record => writeRecord (record.map String.toList) ++ ['\n'])

end FormRehearsal.Dataset
