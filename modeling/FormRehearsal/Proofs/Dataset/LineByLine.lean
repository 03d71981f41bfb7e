/-
# Datasets, line by line

The lines of a text with content are read one by one: the first of them gives the names, and each of
the others gives one row, which depends on the header and on this line alone. A name that the header
repeats has one place in a row, which is that of its first column, and the value of its last column,
which may be missing.

* `pairwise_idxOf_eraseDups` : names without repetition, in the order of their first columns;
* `contentLines_eq` : the lines that are looked at are those with content;
* `get?_rowOf` : the value of a name is that of its last column;
* `parse_lineByLine` : every text is read line by line.
-/
import FormRehearsal.Proofs.Dataset.NormalForm
import Mathlib.Data.List.Forall2
import Mathlib.Data.List.Induction

namespace FormRehearsal.Dataset

/-! ## Names without repetition -/

/-- The names of a header, each once, in the order of their first columns. -/
structure FirstOccurrences (header names : List String) : Prop where
  distinct : names.Nodup
  same : ∀ name, name ∈ names ↔ name ∈ header
  ordered : names.Pairwise fun a b => header.idxOf a < header.idxOf b

/-- Names that are kept at their first occurrence are in the order of these. -/
theorem pairwise_idxOf_eraseDups (header : List String) :
    header.eraseDups.Pairwise fun a b => header.idxOf a < header.idxOf b := by
  induction header using List.reverseRecOn with
  | nil => exact List.Pairwise.nil
  | append_singleton header name ih =>
    -- another column in the end changes no first occurrence
    have hkeep : ∀ {a}, a ∈ header.eraseDups →
        (header ++ [name]).idxOf a = header.idxOf a ∧ header.idxOf a < header.length := by
      intro a ha
      rw [List.mem_eraseDups] at ha
      rw [List.idxOf_append, if_pos ha]
      exact ⟨rfl, List.idxOf_lt_length_of_mem ha⟩
    have hold : header.eraseDups.Pairwise fun a b =>
        (header ++ [name]).idxOf a < (header ++ [name]).idxOf b := by
      refine ih.imp_of_mem fun ha hb hlt => ?_
      rwa [(hkeep ha).1, (hkeep hb).1]
    rw [List.eraseDups_append]
    by_cases hname : name ∈ header
    · have hnone : [name].removeAll header = [] := by simp [List.removeAll, hname]
      rw [hnone, List.eraseDups_nil, List.append_nil]
      exact hold
    · have hone : ([name].removeAll header).eraseDups = [name] := by
        simp [List.removeAll, hname, List.eraseDups_cons]
      rw [hone]
      refine List.pairwise_append.2 ⟨hold, List.pairwise_singleton _ _, fun a ha b hb => ?_⟩
      obtain rfl := List.mem_singleton.1 hb
      rw [(hkeep ha).1, List.idxOf_append, if_neg hname]
      exact Nat.lt_of_lt_of_le (hkeep ha).2 (Nat.le_add_left _ _)

theorem firstOccurrences_eraseDups (header : List String) :
    FirstOccurrences header header.eraseDups where
  distinct := nodup_eraseDups header
  same := fun _ => List.mem_eraseDups
  ordered := pairwise_idxOf_eraseDups header

/-! ## Lines with content -/

/-- The lines of a text that hold a character that is not blank, as they are written. -/
def linesWithContent (text : String) : List (List Char) :=
  (Text.splitAt isLineEnd text.toList).filter fun line => line.any (!Text.isBlank ·)

/-- Nothing is left of a line when it is trimmed exactly if it has no content. -/
theorem isEmpty_trim (line : List Char) :
    (Text.trim line).isEmpty = !line.any (!Text.isBlank ·) := by
  cases hany : line.any (!Text.isBlank ·) with
  | true =>
    obtain ⟨c, hc, hb⟩ := List.any_eq_true.1 hany
    simpa using List.ne_nil_of_mem (Text.mem_trim hc (by simpa using hb))
  | false =>
    have hblank : line.all Text.isBlank = true := by simpa using hany
    have hstart := Text.trimStart_blank_append (s := []) hblank
    rw [List.append_nil] at hstart
    rw [Text.trim, hstart]
    rfl

/-- The lines that are looked at are those with content, trimmed. -/
theorem contentLines_eq (text : String) :
    contentLines text.toList = (linesWithContent text).map Text.trim := by
  have hpred : ((!·.isEmpty) ∘ Text.trim : List Char → Bool) =
      fun line => line.any (!Text.isBlank ·) := by
    funext line
    simp only [Function.comp_apply, isEmpty_trim, Bool.not_not]
  rw [contentLines, List.filter_map, hpred, linesWithContent]

theorem linesWithContent_ne_nil_iff (text : String) :
    linesWithContent text ≠ [] ↔ HasContent text := by
  rw [← contentLines_ne_nil_iff, contentLines_eq, Ne, Ne, List.map_eq_nil_iff]

/-- What is read off a text with content: the names of its first line, and a row for each of the
others. -/
theorem parse_of_linesWithContent {text : String} {first : List Char} {rest : List (List Char)}
    (h : linesWithContent text = first :: rest) :
    parse text = ⟨(lineFields (Text.trim first)).eraseDups,
      rest.map fun line => rowOf (lineFields (Text.trim first)) (Text.trim line)⟩ := by
  rw [parse, contentLines_eq, h, List.map_cons]
  dsimp only
  rw [List.map_map]
  rfl

/-! ## Columns of a row -/

/-- A column has its name, and its value or the empty text. -/
theorem getElem?_columns (header values : List String) (j : Nat) :
    (columns header values)[j]? = header[j]?.map fun name => (name, values[j]?.getD "") := by
  fun_induction columns header values generalizing j with
  | case1 => rfl
  | case2 name names ih =>
    cases j with
    | zero => rfl
    | succ j => exact ih j
  | case3 name names value values ih =>
    cases j with
    | zero => rfl
    | succ j => exact ih j

/-- The last column of a header with a name. -/
structure LastColumn (header : List String) (name : String) (j : Nat) : Prop where
  named : header[j]? = some name
  last : ∀ k, j < k → header[k]? ≠ some name

/-- A name has the value of its last column, or the empty text if the line has no such column. -/
theorem get?_rowOf {header : List String} {name : String} {j : Nat}
    (h : LastColumn header name j) (line : List Char) :
    (rowOf header line).get? name = some ((lineFields line)[j]?.getD "") := by
  have hcolumn : (columns header (lineFields line))[j]? =
      some (name, (lineFields line)[j]?.getD "") := by
    rw [getElem?_columns, h.named, Option.map_some]
  -- no column behind this one has the name
  have hafter : name ∉ ((columns header (lineFields line)).drop (j + 1)).map Prod.fst := by
    rw [List.map_drop, map_fst_columns]
    intro hm
    obtain ⟨k, hk⟩ := List.mem_iff_getElem?.1 hm
    rw [List.getElem?_drop] at hk
    exact h.last (j + 1 + k) (by omega) hk
  obtain ⟨hj, hget⟩ := List.getElem?_eq_some_iff.1 hcolumn
  rw [rowOf, ← List.take_append_drop j (columns header (lineFields line)),
    List.drop_eq_getElem_cons hj, hget]
  exact Record.get?_ofPairs_of_last hafter

/-! ## Texts -/

/-- A row is read off one line under a header: it has a value for each name, that of the last column
with this name, and no others. -/
structure ReadsRow (header names : List String) (line : List Char) (row : Row) : Prop where
  keys : row.keys = names
  value : ∀ name j, LastColumn header name j →
    row.get? name = some ((lineFields (Text.trim line))[j]?.getD "")

/-- A dataset is read off the lines with content: the first one holds the names, and each of the
others one row. -/
structure ReadsLines (first : List Char) (rest : List (List Char)) (d : Dataset) : Prop where
  named : d.fields ≠ []
  fields : FirstOccurrences (lineFields (Text.trim first)) d.fields
  names : ∀ name ∈ d.fields, IsCell name
  values : ∀ row ∈ d.rows, ∀ value ∈ row.values, IsCell value
  rows : List.Forall₂ (ReadsRow (lineFields (Text.trim first)) d.fields) rest d.rows

/-- **Line by line.** A text without content holds the empty dataset; any other one is read line by
line. -/
theorem parse_lineByLine (text : String) :
    match linesWithContent text with
    | [] => parse text = {}
    | first :: rest => ReadsLines first rest (parse text) := by
  have hcontent := linesWithContent_ne_nil_iff text
  cases hl : linesWithContent text with
  | nil =>
    rw [hl] at hcontent
    exact parse_of_blank fun h => hcontent.2 h rfl
  | cons first rest =>
    rw [hl] at hcontent
    have hnormal := normal_parse (hcontent.1 (List.cons_ne_nil first rest))
    have hparse := parse_of_linesWithContent hl
    constructor
    case named => exact hnormal.named
    case names => exact hnormal.names
    case values => exact hnormal.values
    case fields =>
      rw [hparse]
      exact firstOccurrences_eraseDups _
    case rows =>
      rw [hparse, List.forall₂_map_right_iff]
      refine List.forall₂_same.2 fun line _ => ⟨?_, fun name j hj => get?_rowOf hj _⟩
      rw [rowOf, Record.keys_ofPairs, map_fst_columns]

end FormRehearsal.Dataset
