/-
# Datasets

A dataset is a list of field names and a list of rows. Each row is a record of texts. Here are its
one-line summary and its form as JSON; it is read in `Dataset.Parser` and written in
`Dataset.Printer`.
-/
import FormRehearsal.Json.Value

namespace FormRehearsal

/-- One line of a dataset: a text for every field. -/
abbrev Row := Record String

/-- Distinct field names in the order of the header, and the rows. -/
structure Dataset where
  fields : List String := []
  rows : List Row := []
  deriving DecidableEq, Repr

namespace Dataset

/-- What was loaded, in one line; the fields are those of the first row. -/
def summary (d : Dataset) : String :=
  match d.rows with
  | [] => "No CSV loaded."
  | first :: _ =>
    "Loaded " ++ toString d.rows.length ++ " row(s). Fields: " ++ ", ".intercalate first.keys

/-- A row as JSON. -/
def rowJson (row : Row) : Json := .object (row.mapValues Json.string)

/-- A dataset as JSON. -/
def toJson (d : Dataset) : Json :=
  .object [("fields", .array (d.fields.map Json.string)), ("rows", .array (d.rows.map rowJson))]

end Dataset

end FormRehearsal
