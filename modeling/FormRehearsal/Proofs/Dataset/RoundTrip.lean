/-
# Writing a dataset and reading it again

A dataset in normal form is read again as it was, whatever commas, quotes, blanks and empty texts
its names and values hold: each of its records is a line of its own, which is neither trimmed nor
passed over, and the fields of the record are read off it.

* `contentLines_toCsv` : the lines of the text are those of the records;
* `parse_toCsv` : a dataset in normal form survives;
* `parse_toCsv_parse` : so does whatever was read, and writing it a second time changes nothing.
-/
import FormRehearsal.Proofs.Dataset.NormalForm

namespace FormRehearsal.Dataset

/-! ## The lines of a text -/

/-- Lines that are ended one by one are the pieces of a text, and nothing follows them. -/
theorem splitAt_flatMap_lines {lines : List (List Char)}
    (h : ∀ line ∈ lines, ∀ c ∈ line, isLineEnd c = false) :
    Text.splitAt isLineEnd (lines.flatMap (· ++ ['\n'])) = lines ++ [[]] := by
  induction lines with
  | nil => rfl
  | cons line rest ih =>
    obtain ⟨hline, hrest⟩ := List.forall_mem_cons.1 h
    rw [List.flatMap_cons, List.append_assoc, List.singleton_append,
      Text.splitAt_append hline rfl, ih hrest, List.cons_append]

/-- The line of a record. -/
def recordLine (record : List String) : List Char := writeRecord (record.map String.toList)

variable {record : List String} (h : ∀ cell ∈ record, IsCell cell)

include h

theorem unpadded_recordLine : Text.Unpadded (recordLine record) := by
  apply unpadded_writeRecord
  intro field hm
  obtain ⟨cell, hcell, rfl⟩ := List.mem_map.1 hm
  exact (h cell hcell).unpadded

theorem noLineEnd_recordLine : ∀ c ∈ recordLine record, isLineEnd c = false := by
  intro c hc
  rcases mem_writeRecord hc with rfl | rfl | ⟨field, hm, hfield⟩
  · rfl
  · rfl
  · obtain ⟨cell, hcell, rfl⟩ := List.mem_map.1 hm
    exact (h cell hcell).noLineEnd c hfield

/-- A record is read off its line. -/
theorem lineFields_recordLine (hne : record ≠ []) : lineFields (recordLine record) = record := by
  have hfields : splitLine (recordLine record) = record.map String.toList := by
    apply splitLine_writeRecord
    · simpa using hne
    · intro field hm
      obtain ⟨cell, hcell, rfl⟩ := List.mem_map.1 hm
      exact (h cell hcell).unpadded
  rw [lineFields, hfields, List.map_map]
  conv => rhs; rw [← List.map_id record]
  exact List.map_congr_left fun cell _ => String.ofList_toList

omit h

/-- **Lines.** The lines that are read off a written dataset are those of its records. -/
theorem contentLines_toCsv {d : Dataset} (h : ∀ record ∈ d.records, ∀ cell ∈ record, IsCell cell) :
    contentLines (toCsv d).toList = d.records.map recordLine := by
  have htext : (toCsv d).toList = (d.records.map recordLine).flatMap (· ++ ['\n']) := by
    rw [toCsv, String.toList_ofList, List.flatMap_map]
    rfl
  have hlines : ∀ line ∈ d.records.map recordLine, ∀ c ∈ line, isLineEnd c = false := by
    intro line hm
    obtain ⟨record, hrecord, rfl⟩ := List.mem_map.1 hm
    exact noLineEnd_recordLine (h record hrecord)
  have htrim : (d.records.map recordLine).map Text.trim = d.records.map recordLine := by
    rw [List.map_map]
    exact List.map_congr_left fun record hm => (unpadded_recordLine (h record hm)).trim_eq
  have hkeep : (d.records.map recordLine).filter (!·.isEmpty) = d.records.map recordLine := by
    apply List.filter_eq_self.2
    intro line hm
    obtain ⟨record, -, rfl⟩ := List.mem_map.1 hm
    simpa [recordLine] using writeRecord_ne_nil (record.map String.toList)
  rw [contentLines, htext, splitAt_flatMap_lines hlines, List.map_append, htrim,
    List.filter_append, hkeep]
  exact List.append_nil _

/-! ## Rows -/

/-- The names and values of a row in two columns are the row. -/
theorem columns_keys_values (row : Row) : columns row.keys row.values = row := by
  induction row with
  | nil => rfl
  | cons p row ih => exact congrArg (p :: ·) ih

namespace Normal

variable {d : Dataset}

/-- The record of a row holds its values. -/
theorem rowValues_eq (h : Normal d) {row : Row} (hrow : row ∈ d.rows) :
    rowValues d.fields row = row.values := by
  have hkeys := h.complete row hrow
  have hdistinct : (Record.keys row).Nodup := hkeys ▸ h.distinct
  have hget := congrArg (List.map fun value => value.getD "") (Record.map_get?_keys hdistinct)
  rw [List.map_map, List.map_map, hkeys] at hget
  have hid : row.values.map ((fun value => value.getD "") ∘ some) = row.values := List.map_id _
  rw [hid] at hget
  exact hget

/-- Every record of a dataset in normal form holds names or values. -/
theorem isCell_of_mem_records (h : Normal d) {record : List String} (hm : record ∈ d.records) :
    ∀ cell ∈ record, IsCell cell := by
  rcases List.mem_cons.1 hm with rfl | hm
  · exact h.names
  · obtain ⟨row, hrow, rfl⟩ := List.mem_map.1 hm
    rw [h.rowValues_eq hrow]
    exact h.values row hrow

/-- A row is read off its line. -/
theorem rowOf_recordLine (h : Normal d) {row : Row} (hrow : row ∈ d.rows) :
    rowOf d.fields (recordLine (rowValues d.fields row)) = row := by
  have hkeys := h.complete row hrow
  have hne : row.values ≠ [] := by
    intro hnil
    have hrow : row = [] := List.map_eq_nil_iff.1 hnil
    exact h.named (by rw [← hkeys, hrow]; rfl)
  rw [h.rowValues_eq hrow, rowOf, lineFields_recordLine (h.values row hrow) hne, ← hkeys,
    columns_keys_values]
  apply Record.ofPairs_of_nodup
  show (Record.keys row).Nodup
  rw [hkeys]
  exact h.distinct

end Normal

/-! ## The round trip -/

theorem eraseDups_of_nodup {names : List String} (h : names.Nodup) : names.eraseDups = names := by
  induction names with
  | nil => rfl
  | cons name rest ih =>
    obtain ⟨hname, hrest⟩ := List.nodup_cons.1 h
    have hkeep : rest.filter (fun other => !other == name) = rest := by
      apply List.filter_eq_self.2
      intro other hm
      have hne : other ≠ name := fun he => hname (he ▸ hm)
      simpa using hne
    rw [List.eraseDups_cons, hkeep, ih hrest]

/-- **The round trip.** A dataset in normal form is read again as it was. -/
theorem parse_toCsv {d : Dataset} (h : Normal d) : parse (toCsv d) = d := by
  have hlines : contentLines (toCsv d).toList = recordLine d.fields ::
      d.rows.map fun row => recordLine (rowValues d.fields row) := by
    rw [contentLines_toCsv fun record hm => h.isCell_of_mem_records hm, records, List.map_cons,
      List.map_map]
    rfl
  have hrows : (d.rows.map fun row => recordLine (rowValues d.fields row)).map (rowOf d.fields) =
      d.rows := by
    rw [List.map_map]
    conv => rhs; rw [← List.map_id d.rows]
    exact List.map_congr_left fun row hrow => h.rowOf_recordLine hrow
  rw [parse, hlines]
  dsimp only
  rw [lineFields_recordLine h.names h.named, eraseDups_of_nodup h.distinct, hrows]

/-- **Round trips.** A dataset in normal form is read again as it was. So is what was read off a
text with content; and whatever text a dataset was read from, what is written of it is written again
when it is read. -/
theorem parse_toCsv_parse :
    (∀ d : Dataset, Normal d → parse (toCsv d) = d) ∧
      (∀ text, HasContent text → parse (toCsv (parse text)) = parse text) ∧
      ∀ text, toCsv (parse (toCsv (parse text))) = toCsv (parse text) := by
  have again : ∀ text, HasContent text → parse (toCsv (parse text)) = parse text :=
    fun text h => parse_toCsv (normal_parse h)
  refine ⟨fun d h => parse_toCsv h, again, fun text => ?_⟩
  by_cases h : HasContent text
  · rw [again text h]
  · -- nothing is written as a pair of quotes, which is read as one name that is empty
    rw [parse_of_blank h]
    decide +kernel

/-- Names with a comma and an empty name, values that are quotes only or empty; and a text whose
header repeats a name. -/
theorem parse_toCsv_parse_quotes :
    let d : Dataset :=
      { fields := ["last, first", ""],
        rows := [[("last, first", "\"\""), ("", "")], [("last, first", ""), ("", "")]] }
    Normal d ∧ parse (toCsv d) = d ∧ HasContent "\r k,k\n1,\"2" ∧
      parse (toCsv (parse "\r k,k\n1,\"2")) = parse "\r k,k\n1,\"2" := by
  intro d
  have hcells : ∀ s ∈ ["last, first", "", "\"\""], IsCell s := by
    intro s hs
    simp only [List.mem_cons, List.not_mem_nil, or_false] at hs
    rcases hs with rfl | rfl | rfl
    · decide
    · exact isCell_empty
    · decide
  have hd : Normal d := by
    constructor
    case named => decide
    case distinct => decide
    case complete => decide
    case names => exact fun name hname => hcells name (by revert name; decide)
    case values =>
      exact fun row hrow value hvalue => hcells value (by revert row value; decide)
  have hcontent : HasContent "\r k,k\n1,\"2" :=
    ⟨" k,k".toList, by decide, 'k', by decide, by decide⟩
  exact ⟨hd, parse_toCsv_parse.1 d hd, hcontent, parse_toCsv_parse.2.1 _ hcontent⟩

end FormRehearsal.Dataset
