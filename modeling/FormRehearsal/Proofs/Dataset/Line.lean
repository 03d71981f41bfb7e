/-
# One line of a dataset

A record is written as one line, and its fields are read off that line again. Quotes that were put
around a field switch quoting on and off, doubled ones are one quote of the field, and only the
commas between fields stand outside quotes. The line begins and ends with no blank and is not empty,
whatever its fields are, so it is neither trimmed nor passed over.

* `rawFields_plain_append`, `rawFields_quoted_append` : what is read off a field that stands without
  quotes or between them;
* `splitLine_writeRecord` : the fields of a record are read off its line;
* `unpadded_writeRecord`, `writeRecord_ne_nil` : the line is left alone.
-/
import FormRehearsal.Dataset.Printer

namespace FormRehearsal.Dataset

/-! ## Fields, character by character -/

/-- Characters in front of the first piece. -/
theorem foldr_consFirst (s piece : List Char) (pieces : List (List Char)) :
    s.foldr consFirst (piece :: pieces) = (s ++ piece) :: pieces := by
  induction s with
  | nil => rfl
  | cons c s ih =>
    rw [List.foldr_cons, ih]
    rfl

theorem rawFields_open (r : List Char) : rawFields false ('"' :: r) = rawFields true r := by
  simp [rawFields]

theorem rawFields_comma (r : List Char) : rawFields false (',' :: r) = [] :: rawFields false r := by
  simp [rawFields]

/-- A quote within quotes ends them, unless another one follows. -/
theorem rawFields_close {r : List Char} (h : r.head? ≠ some '"') :
    rawFields true ('"' :: r) = rawFields false r := by
  cases r with
  | nil => simp [rawFields]
  | cons c r =>
    have hc : c ≠ '"' := by simpa using h
    rw [rawFields.eq_3 true '"' (c :: r)]
    · rfl
    · rintro s - - heq
      obtain ⟨rfl, -⟩ := List.cons.inj heq
      exact hc rfl

/-- Any other character belongs to the field, and so does a comma within quotes. -/
theorem rawFields_cons {quoted : Bool} {c : Char} (hq : c ≠ '"') (hc : c ≠ ',' ∨ quoted = true)
    (r : List Char) : rawFields quoted (c :: r) = consFirst c (rawFields quoted r) := by
  rw [rawFields.eq_3 quoted c r]
  · rw [if_neg hq, if_neg]
    rintro ⟨rfl, rfl⟩
    rcases hc with hc | hc
    · exact hc rfl
    · cases hc
  · rintro s - rfl -
    exact hq rfl

/-- A text without commas and quotes stands for itself. -/
theorem rawFields_plain_append {s : List Char} (h : ∀ c ∈ s, c ≠ ',' ∧ c ≠ '"') (r : List Char) :
    rawFields false (s ++ r) = s.foldr consFirst (rawFields false r) := by
  induction s with
  | nil => rfl
  | cons c s ih =>
    obtain ⟨hc, hq⟩ := h c List.mem_cons_self
    rw [List.cons_append, rawFields_cons hq (Or.inl hc),
      ih fun d hd => h d (List.mem_cons_of_mem c hd), List.foldr_cons]

/-- A text with its quotes doubled stands for itself within quotes. -/
theorem rawFields_quoted_append (s : List Char) {r : List Char} (h : r.head? ≠ some '"') :
    rawFields true (doubleQuotes s ++ '"' :: r) = s.foldr consFirst (rawFields false r) := by
  induction s with
  | nil => exact rawFields_close h
  | cons c s ih =>
    by_cases hq : c = '"'
    · subst hq
      show rawFields true ('"' :: '"' :: (doubleQuotes s ++ '"' :: r)) = _
      rw [rawFields, ih, List.foldr_cons]
    · have hdouble : doubleQuotes (c :: s) = c :: doubleQuotes s := by
        simp [doubleQuotes, hq]
      rw [hdouble, List.cons_append, rawFields_cons hq (Or.inr rfl), ih, List.foldr_cons]

/-! ## Records -/

/-- A field that was written is read again, if what follows does not begin with a quote. -/
theorem rawFields_writeField (field : List Char) {r : List Char} (h : r.head? ≠ some '"') :
    rawFields false (writeField field ++ r) = field.foldr consFirst (rawFields false r) := by
  rw [writeField]
  split
  · rw [List.cons_append, rawFields_open, List.append_assoc]
    exact rawFields_quoted_append field h
  · rename_i hn
    apply rawFields_plain_append
    intro c hc
    have hany := List.any_eq_false.1 (Bool.eq_false_iff.2 hn) c hc
    simp only [Bool.or_eq_true, decide_eq_true_eq, not_or] at hany
    exact hany.1

/-- Fields that are read off what is written of them are read between commas too. -/
theorem rawFields_joinWith {α : Type} {write field : α → List Char} {items : List α}
    (hne : items ≠ [])
    (h : ∀ item ∈ items, ∀ r : List Char, r.head? ≠ some '"' →
      rawFields false (write item ++ r) = (field item).foldr consFirst (rawFields false r)) :
    rawFields false (Text.joinWith [','] (items.map write)) = items.map field := by
  induction items with
  | nil => exact absurd rfl hne
  | cons item rest ih =>
    have hread := h item List.mem_cons_self
    cases rest with
    | nil =>
      have hlast := hread [] (by simp)
      rw [List.append_nil] at hlast
      show rawFields false (write item) = [field item]
      rw [hlast, rawFields, foldr_consFirst, List.append_nil]
    | cons other rest =>
      show rawFields false (write item ++ [','] ++
        Text.joinWith [','] ((other :: rest).map write)) = _
      rw [List.append_assoc, hread _ (by simp), List.singleton_append, rawFields_comma,
        ih (List.cons_ne_nil other rest) fun x hx => h x (List.mem_cons_of_mem item hx),
        foldr_consFirst, List.append_nil]
      rfl

/-- The line of a record is its fields between commas, or a pair of quotes. -/
theorem writeRecord_cases (record : List (List Char)) :
    (writeRecord record = ['"', '"'] ∧ Text.joinWith [','] (record.map writeField) = []) ∨
      (writeRecord record = Text.joinWith [','] (record.map writeField) ∧
        writeRecord record ≠ []) := by
  rw [writeRecord]
  split
  · rename_i h
    exact Or.inl ⟨rfl, h⟩
  · rename_i h
    exact Or.inr ⟨rfl, h⟩

theorem writeRecord_ne_nil (record : List (List Char)) : writeRecord record ≠ [] := by
  rcases writeRecord_cases record with ⟨h, -⟩ | ⟨-, h⟩
  · rw [h]
    exact List.cons_ne_nil _ _
  · exact h

/-- The fields of a record are read off its line. -/
theorem rawFields_writeRecord {record : List (List Char)} (hne : record ≠ []) :
    rawFields false (writeRecord record) = record := by
  have hread : rawFields false (Text.joinWith [','] (record.map writeField)) = record.map id :=
    rawFields_joinWith hne fun field _ r => rawFields_writeField field
  rw [List.map_id] at hread
  rcases writeRecord_cases record with ⟨h, hnil⟩ | ⟨h, -⟩
  · -- the only field is empty
    rw [hnil, rawFields] at hread
    rw [h, ← hread]
    rfl
  · rw [h, hread]

/-- **Lines.** The fields of a record that have no blank ends are read off its line. -/
theorem splitLine_writeRecord {record : List (List Char)} (hne : record ≠ [])
    (h : ∀ field ∈ record, Text.Unpadded field) : splitLine (writeRecord record) = record := by
  rw [splitLine, rawFields_writeRecord hne]
  conv => rhs; rw [← List.map_id record]
  exact List.map_congr_left fun field hm => (h field hm).trim_eq

/-! ## Lines are left alone -/

/-- A character in front adds nothing else to the pieces. -/
theorem mem_of_mem_consFirst {d : Char} {s piece : List Char} {pieces : List (List Char)}
    (h : ∀ p ∈ pieces, ∀ c ∈ p, c ∈ s) (hm : piece ∈ consFirst d pieces) :
    ∀ c ∈ piece, c ∈ d :: s := by
  intro c hc
  cases pieces with
  | nil =>
    obtain rfl := List.mem_singleton.1 hm
    exact List.mem_cons.2 (Or.inl (List.mem_singleton.1 hc))
  | cons p pieces =>
    rcases List.mem_cons.1 hm with rfl | hm
    · rcases List.mem_cons.1 hc with rfl | hc
      · exact List.mem_cons_self
      · exact List.mem_cons_of_mem d (h p List.mem_cons_self c hc)
    · exact List.mem_cons_of_mem d (h piece (List.mem_cons_of_mem p hm) c hc)

/-- A field of a line holds characters of the line only. -/
theorem mem_of_mem_rawFields {quoted : Bool} {line piece : List Char}
    (h : piece ∈ rawFields quoted line) {c : Char} (hc : c ∈ piece) : c ∈ line := by
  fun_induction rawFields quoted line generalizing piece c with
  | case1 =>
    obtain rfl := List.mem_singleton.1 h
    cases hc
  | case2 r ih =>
    exact List.mem_cons_of_mem _ (mem_of_mem_consFirst (fun _ hp _ hc => ih hp hc) h c hc)
  | case3 quoted r _ ih => exact List.mem_cons_of_mem _ (ih h hc)
  | case4 quoted d r _ hd hcomma ih =>
    rcases List.mem_cons.1 h with rfl | h
    · cases hc
    · exact List.mem_cons_of_mem _ (ih h hc)
  | case5 quoted d r _ hd hcomma ih =>
    exact mem_of_mem_consFirst (fun _ hp _ hc => ih hp hc) h c hc

/-- A written field is empty or has no blank ends either. -/
theorem unpadded_writeField {field : List Char} (h : Text.Unpadded field) :
    Text.Unpadded (writeField field) := by
  rw [writeField]
  split
  · constructor
    · rintro c hc
      cases hc
      rfl
    · rintro c hc
      rw [← List.cons_append, List.getLast?_concat] at hc
      cases hc
      rfl
  · exact h

/-- Texts without blank ends have none when they stand between commas. -/
theorem unpadded_joinWith {pieces : List (List Char)} (h : ∀ s ∈ pieces, Text.Unpadded s) :
    Text.Unpadded (Text.joinWith [','] pieces) := by
  induction pieces with
  | nil => exact Text.unpadded_nil
  | cons s rest ih =>
    have hs := h s List.mem_cons_self
    cases rest with
    | nil => exact hs
    | cons t rest =>
      have hrest := ih fun u hu => h u (List.mem_cons_of_mem s hu)
      rw [Text.joinWith, List.append_assoc]
      constructor
      · intro c hc
        rw [List.head?_append] at hc
        cases hhead : s.head? with
        | none =>
          rw [hhead] at hc
          cases hc
          rfl
        | some d =>
          rw [hhead] at hc
          cases hc
          exact hs.head c hhead
      · intro c hc
        rw [← List.append_assoc, List.getLast?_append] at hc
        cases hlast : (Text.joinWith [','] (t :: rest)).getLast? with
        | none =>
          rw [hlast, Option.none_or, List.getLast?_concat] at hc
          cases hc
          rfl
        | some d =>
          rw [hlast] at hc
          cases hc
          exact hrest.last c hlast

theorem unpadded_writeRecord {record : List (List Char)}
    (h : ∀ field ∈ record, Text.Unpadded field) : Text.Unpadded (writeRecord record) := by
  rcases writeRecord_cases record with ⟨hw, -⟩ | ⟨hw, -⟩
  · rw [hw]
    constructor
    · rintro c hc
      cases hc
      rfl
    · rintro c hc
      cases hc
      rfl
  · rw [hw]
    apply unpadded_joinWith
    intro s hs
    obtain ⟨field, hm, rfl⟩ := List.mem_map.1 hs
    exact unpadded_writeField (h field hm)

/-- Doubling the quotes of a text brings in no other characters. -/
theorem mem_doubleQuotes {s : List Char} {c : Char} (h : c ∈ doubleQuotes s) : c = '"' ∨ c ∈ s := by
  obtain ⟨d, hd, h⟩ := List.mem_flatMap.1 h
  split at h
  · simp only [List.mem_cons, List.not_mem_nil, or_false, or_self] at h
    exact Or.inl h
  · obtain rfl := List.mem_singleton.1 h
    exact Or.inr hd

/-- A written field holds the characters of the field and quotes only. -/
theorem mem_writeField {field : List Char} {c : Char} (h : c ∈ writeField field) :
    c = '"' ∨ c ∈ field := by
  rw [writeField] at h
  split at h
  · rw [List.mem_cons, List.mem_append, List.mem_singleton] at h
    rcases h with h | h | h
    · exact Or.inl h
    · exact mem_doubleQuotes h
    · exact Or.inl h
  · exact Or.inr h

theorem mem_joinWith {pieces : List (List Char)} {c : Char}
    (h : c ∈ Text.joinWith [','] pieces) : c = ',' ∨ ∃ s ∈ pieces, c ∈ s := by
  induction pieces with
  | nil => cases h
  | cons s rest ih =>
    cases rest with
    | nil => exact Or.inr ⟨s, List.mem_cons_self, h⟩
    | cons t rest =>
      rw [Text.joinWith, List.mem_append, List.mem_append, List.mem_singleton] at h
      rcases h with (h | h) | h
      · exact Or.inr ⟨s, List.mem_cons_self, h⟩
      · exact Or.inl h
      · rcases ih h with h | ⟨u, hu, h⟩
        · exact Or.inl h
        · exact Or.inr ⟨u, List.mem_cons_of_mem s hu, h⟩

/-- A line holds the characters of its fields, commas and quotes only. -/
theorem mem_writeRecord {record : List (List Char)} {c : Char} (h : c ∈ writeRecord record) :
    c = ',' ∨ c = '"' ∨ ∃ field ∈ record, c ∈ field := by
  rcases writeRecord_cases record with ⟨hw, -⟩ | ⟨hw, -⟩
  · rw [hw] at h
    exact Or.inr (Or.inl (by simpa using h))
  · rcases mem_joinWith (hw ▸ h) with h | ⟨s, hs, h⟩
    · exact Or.inl h
    · obtain ⟨field, hm, rfl⟩ := List.mem_map.1 hs
      exact Or.inr ((mem_writeField h).imp id fun h => ⟨field, hm, h⟩)

end FormRehearsal.Dataset
