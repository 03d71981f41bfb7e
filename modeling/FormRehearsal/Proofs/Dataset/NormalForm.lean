/-
# The normal form of datasets

A dataset is in normal form if its field names are distinct and there is one, every row has a value
for each of them in their order, and no name or value holds a line end or has a blank end. Whatever
text a dataset is read from, it is in normal form, unless the text is blank.

* `normal_parse` : what is read is in normal form;
* `parse_of_blank` : nothing is read off a blank text.
-/
import FormRehearsal.Proofs.Dataset.Line

namespace FormRehearsal.Dataset

/-- A text that can be a name or a value: without line ends and without blank ends. -/
structure IsCell (s : String) : Prop where
  noLineEnd : ∀ c ∈ s.toList, isLineEnd c = false
  unpadded : Text.Unpadded s.toList

instance (s : String) : Decidable (IsCell s) :=
  decidable_of_iff (s.toList.all (!isLineEnd ·) = true ∧ Text.Unpadded s.toList) <| by
    simp only [List.all_eq_true, Bool.not_eq_true']
    exact ⟨fun h => ⟨h.1, h.2⟩, fun h => ⟨h.noLineEnd, h.unpadded⟩⟩

/-- The normal form. -/
structure Normal (d : Dataset) : Prop where
  named : d.fields ≠ []
  distinct : d.fields.Nodup
  complete : ∀ row ∈ d.rows, row.keys = d.fields
  names : ∀ name ∈ d.fields, IsCell name
  values : ∀ row ∈ d.rows, ∀ value ∈ row.values, IsCell value

/-- Some line of a text holds a character that is not blank. -/
def HasContent (text : String) : Prop :=
  ∃ line ∈ Text.splitAt isLineEnd text.toList, ∃ c ∈ line, Text.isBlank c = false

/-! ## Names and values -/

theorem isCell_empty : IsCell "" where
  noLineEnd := fun c hc => by cases hc
  unpadded := Text.unpadded_nil

/-- The fields of a line without line ends can be names and values. -/
theorem isCell_of_mem_lineFields {line : List Char} (h : ∀ c ∈ line, isLineEnd c = false)
    {s : String} (hs : s ∈ lineFields line) : IsCell s := by
  obtain ⟨t, ht, rfl⟩ := List.mem_map.1 hs
  obtain ⟨piece, hpiece, rfl⟩ := List.mem_map.1 ht
  constructor
  · intro c hc
    rw [String.toList_ofList] at hc
    exact h c (mem_of_mem_rawFields hpiece ((Text.trim_sublist piece).subset hc))
  · rw [String.toList_ofList]
    exact Text.unpadded_trim piece

/-- The values under a header are fields of the line or empty. -/
theorem isCell_of_mem_columns {header values : List String} (h : ∀ s ∈ values, IsCell s)
    {p : String × String} (hp : p ∈ columns header values) : IsCell p.2 := by
  fun_induction columns header values with
  | case1 => cases hp
  | case2 name names ih =>
    rcases List.mem_cons.1 hp with rfl | hp
    · exact isCell_empty
    · exact ih h hp
  | case3 name names value values ih =>
    rcases List.mem_cons.1 hp with rfl | hp
    · exact h value List.mem_cons_self
    · exact ih (fun s hs => h s (List.mem_cons_of_mem value hs)) hp

theorem map_fst_columns (header values : List String) :
    (columns header values).map Prod.fst = header := by
  fun_induction columns header values with
  | case1 => rfl
  | case2 name names ih => rw [List.map_cons, ih]
  | case3 name names value values ih => rw [List.map_cons, ih]

/-! ## Lines with content -/

/-- A line that is looked at has no line ends, is trimmed and is not empty. -/
theorem of_mem_contentLines {text line : List Char} (h : line ∈ contentLines text) :
    (∀ c ∈ line, isLineEnd c = false) ∧ Text.Unpadded line ∧ line ≠ [] := by
  obtain ⟨hm, hne⟩ := List.mem_filter.1 h
  obtain ⟨piece, hpiece, rfl⟩ := List.mem_map.1 hm
  refine ⟨fun c hc => ?_, Text.unpadded_trim piece, by simpa using hne⟩
  exact Text.not_of_mem_splitAt hpiece ((Text.trim_sublist piece).subset hc)

/-- Lines are looked at exactly if there is content. -/
theorem contentLines_ne_nil_iff (text : String) :
    contentLines text.toList ≠ [] ↔ HasContent text := by
  constructor
  · intro h
    obtain ⟨line, hline⟩ := List.exists_mem_of_ne_nil _ h
    obtain ⟨hm, -⟩ := List.mem_filter.1 hline
    obtain ⟨piece, hpiece, rfl⟩ := List.mem_map.1 hm
    obtain ⟨-, hunpadded, hne⟩ := of_mem_contentLines hline
    obtain ⟨c, rest, hc⟩ := List.exists_cons_of_ne_nil hne
    refine ⟨piece, hpiece, c, ?_, hunpadded.head c (by rw [hc]; rfl)⟩
    exact (Text.trim_sublist piece).subset (hc ▸ List.mem_cons_self)
  · rintro ⟨line, hline, c, hc, hb⟩
    apply List.ne_nil_of_mem (a := Text.trim line)
    refine List.mem_filter.2 ⟨List.mem_map_of_mem hline, ?_⟩
    simpa using List.ne_nil_of_mem (Text.mem_trim hc hb)

/-! ## What is read is in normal form -/

theorem nodup_eraseDups (names : List String) : names.eraseDups.Nodup := by
  cases names with
  | nil => exact List.nodup_nil
  | cons name rest =>
    rw [List.eraseDups_cons]
    refine List.nodup_cons.2 ⟨?_, nodup_eraseDups _⟩
    simp
termination_by names.length
decreasing_by
  have := List.length_filter_le (fun other => !other == name) rest
  simp only [List.length_cons]
  omega

/-- Nothing is read off a text without content. -/
theorem parse_of_blank {text : String} (h : ¬ HasContent text) : parse text = {} := by
  have hnil : contentLines text.toList = [] :=
    Decidable.not_not.1 fun hne => h ((contentLines_ne_nil_iff text).1 hne)
  rw [parse, hnil]

/-- **Normal form.** What is read off a text with content is in normal form. -/
theorem normal_parse {text : String} (h : HasContent text) : Normal (parse text) := by
  obtain ⟨first, rest, hlines⟩ :=
    List.exists_cons_of_ne_nil ((contentLines_ne_nil_iff text).2 h)
  have hline : ∀ line ∈ first :: rest, ∀ c ∈ line, isLineEnd c = false := by
    intro line hm
    rw [← hlines] at hm
    exact (of_mem_contentLines hm).1
  have hparse : parse text =
      ⟨(lineFields first).eraseDups, rest.map (rowOf (lineFields first))⟩ := by
    rw [parse, hlines]
  rw [hparse]
  constructor
  case named =>
    intro hnil
    have hfields : lineFields first ≠ [] := by
      simpa [lineFields, splitLine] using rawFields_ne_nil false first
    obtain ⟨name, hname⟩ := List.exists_mem_of_ne_nil _ hfields
    exact List.ne_nil_of_mem (List.mem_eraseDups.2 hname) hnil
  case distinct => exact nodup_eraseDups _
  case complete =>
    intro row hrow
    obtain ⟨line, -, rfl⟩ := List.mem_map.1 hrow
    rw [rowOf, Record.keys_ofPairs, map_fst_columns]
  case names =>
    intro name hname
    exact isCell_of_mem_lineFields (hline first List.mem_cons_self) (List.mem_eraseDups.1 hname)
  case values =>
    intro row hrow value hvalue
    obtain ⟨line, hm, rfl⟩ := List.mem_map.1 hrow
    obtain ⟨p, hp, rfl⟩ := List.mem_map.1 hvalue
    apply isCell_of_mem_columns _ (Record.mem_of_mem_ofPairs hp)
    intro s hs
    exact isCell_of_mem_lineFields (hline line (List.mem_cons_of_mem first hm)) hs

end FormRehearsal.Dataset
