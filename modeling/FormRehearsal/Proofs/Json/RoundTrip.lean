/-
# Values that are written

A value without spaces is read as itself, if its numbers are whole, its objects have distinct names
and it goes no deeper than the reader may. The reader stops where the value ends, so what is shown of
a value within an array or an object is that it is read in front of a comma or a closing bracket or
brace, whatever comes behind it.

* `items_compactItems`, `fields_compactFields` : items and fields, once every one of them is read;
* `value_compactText` : a value;
* `parse_compact` : a whole text.
-/
import FormRehearsal.Proofs.Json.Reading
import FormRehearsal.Proofs.Json.Scalars

namespace FormRehearsal.Json

/-! ## Where values begin -/

/-- A value begins at the start of such a text, which no blank precedes. -/
def Opens (s : List Char) : Prop := ∃ c r, s = c :: r ∧ Reader.isSpace c = false ∧ c ≠ ']'

theorem Opens.append {s : List Char} (h : Opens s) (rest : List Char) : Opens (s ++ rest) := by
  obtain ⟨c, r, rfl, hc⟩ := h
  exact ⟨c, r ++ rest, rfl, hc⟩

theorem isSpace_of_isDigit {c : Char} (h : c.isDigit = true) : Reader.isSpace c = false := by
  cases hc : Reader.isSpace c with
  | false => rfl
  | true =>
    simp only [Reader.isSpace, Bool.or_eq_true, decide_eq_true_eq] at hc
    rcases hc with ((rfl | rfl) | rfl) | rfl <;> cases h

/-- The text of a whole number begins with its sign or with a digit. -/
theorem exists_integerText_eq_cons (n : Int) :
    ∃ c r, integerText n = c :: r ∧ (c = '-' ∨ c.isDigit = true) := by
  rw [integerText]
  split
  · exact ⟨_, _, rfl, .inl rfl⟩
  · obtain ⟨c, r, h, hc, -⟩ := Text.exists_digitsOf_eq_cons n.natAbs
    exact ⟨c, r, h, .inr hc⟩

/-- A number is a whole one. -/
def Whole : Json → Prop
  | .number (.double _) => False
  | _ => True

theorem opens_compactText {v : Json} (h : v.Whole) : Opens (compactText v) := by
  cases v with
  | number n =>
    cases n with
    | integer n hn =>
      obtain ⟨c, r, hc, hsign | hdigit⟩ := exists_integerText_eq_cons n
      · exact ⟨c, r, by rw [compactText, Number.text, hc], hsign ▸ rfl, hsign ▸ by decide⟩
      · refine ⟨c, r, by rw [compactText, Number.text, hc], isSpace_of_isDigit hdigit, ?_⟩
        rintro rfl
        cases hdigit
    | double x => exact h.elim
  | bool b => cases b <;> exact ⟨_, _, rfl, rfl, by decide⟩
  | null => exact ⟨_, _, rfl, rfl, by decide⟩
  | string s => exact ⟨_, _, by rw [compactText, quoted], rfl, by decide⟩
  | array items => exact ⟨_, _, by rw [compactText], rfl, by decide⟩
  | object fields => exact ⟨_, _, by rw [compactText], rfl, by decide⟩

namespace Reader

theorem skipSpace_of_opens {s : List Char} (h : Opens s) : skipSpace s = s := by
  obtain ⟨c, r, rfl, hc, -⟩ := h
  exact List.dropWhile_cons_of_neg (by simp [hc])

/-! ## One step of the reader -/

section Steps

variable {reader : ValueReader} {s t rest : List Char} {v : Json}

/-- A value in front of a closing bracket is the last item. -/
theorem items_last (h : Reads (reader s) v (']' :: t)) : Reads (items reader s) [v] t := by
  obtain ⟨hlt, hv⟩ := h
  refine ⟨Nat.lt_of_succ_lt hlt, ?_⟩
  rw [items]
  simp only [hv]
  rfl

/-- After a value in front of a comma the items go on. -/
theorem items_cons {vs : List Json} (h : Reads (reader s) v (',' :: t)) (ht : Opens t)
    (hvs : Reads (items reader t) vs rest) : Reads (items reader s) (v :: vs) rest := by
  obtain ⟨hlt, hv⟩ := h
  obtain ⟨hrest, hvs⟩ := hvs
  have hskip := skipSpace_of_opens ht
  obtain ⟨c, r, rfl, -, hbracket⟩ := ht
  refine ⟨Nat.lt_trans hrest (Nat.lt_of_succ_lt hlt), ?_⟩
  rw [items]
  simp only [hv]
  split <;> rename_i hcomma <;> cases hcomma
  · rw [hskip]
    split <;> rename_i heq
    · cases heq
    · cases heq
      exact absurd rfl hbracket
    · simp only [hvs]
  · contradiction

/-- A name that was written, a colon and a value are a field. -/
theorem field_quoted (name : String) (h : Reads (reader s) v t) :
    Reads (field reader (quoted name ++ ':' :: s)) (name, v) t := by
  obtain ⟨hlt, hv⟩ := h
  obtain ⟨hbody, hname⟩ := stringBody_flatMap_escaped name.toList (':' :: s)
  have hquoted : quoted name ++ ':' :: s =
      '"' :: (name.toList.flatMap escaped ++ '"' :: ':' :: s) := by
    rw [quoted, List.cons_append, List.append_assoc]
    rfl
  rw [hquoted]
  refine ⟨by simp only [List.length_cons] at hbody ⊢; omega, ?_⟩
  rw [field]
  split <;> rename_i hopen <;> cases hopen
  · simp only [hname]
    split <;> rename_i hcolon <;> cases hcolon
    · simp only [hv, String.ofList_toList]
    · contradiction
  · contradiction

/-- A field in front of a closing brace is the last one. -/
theorem fields_last {before : Record Json} {name : String}
    (h : Reads (field reader s) (name, v) ('}' :: t)) :
    Reads (fields reader before s) (before.put name v) t := by
  obtain ⟨hlt, hv⟩ := h
  refine ⟨Nat.lt_of_succ_lt hlt, ?_⟩
  rw [fields]
  simp only [hv]
  rfl

/-- After a field in front of a comma the fields go on. -/
theorem fields_cons {before result : Record Json} {name : String}
    (h : Reads (field reader s) (name, v) (',' :: t))
    (hfs : Reads (fields reader (before.put name v) t) result rest) :
    Reads (fields reader before s) result rest := by
  obtain ⟨hlt, hv⟩ := h
  obtain ⟨hrest, hfs⟩ := hfs
  refine ⟨Nat.lt_trans hrest (Nat.lt_of_succ_lt hlt), ?_⟩
  rw [fields]
  simp only [hv]
  split <;> rename_i hcomma <;> cases hcomma
  · simp only [hfs]
  · contradiction

/-- Items in front of which a value begins are an array. -/
theorem array_items {vs : List Json} (hs : Opens s) (h : Reads (items reader s) vs rest) :
    Reads (array reader s) (.array vs) rest := by
  obtain ⟨hlt, hvs⟩ := h
  have hskip := skipSpace_of_opens hs
  obtain ⟨c, r, rfl, -, hbracket⟩ := hs
  refine ⟨hlt, ?_⟩
  rw [array]
  split <;> rename_i heq
  · rw [hskip] at heq
    cases heq
  · rw [hskip] at heq
    cases heq
    exact absurd rfl hbracket
  · simp only [hvs]

/-- Fields in front of which a name begins are an object. -/
theorem object_fields {fs : Record Json} (h : Reads (fields reader [] ('"' :: s)) fs rest) :
    Reads (object reader ('"' :: s)) (.object fs) rest := by
  obtain ⟨hlt, hfs⟩ := h
  refine ⟨hlt, ?_⟩
  rw [object]
  split <;> rename_i hopen <;> cases hopen
  · simp only [hfs]
  · contradiction

/-- A bracket opens an array, whose values go one level less deep. -/
theorem value_array {d : Nat} (h : Reads (array (value d) s) v rest) :
    Reads (value (d + 1) ('[' :: s)) v rest := by
  obtain ⟨hlt, hv⟩ := h
  refine ⟨Nat.lt_succ_of_lt hlt, ?_⟩
  rw [value]
  split <;> rename_i hopen <;> cases hopen
  · simp only [hv]
  · contradiction

/-- A brace opens an object, whose values go one level less deep. -/
theorem value_object {d : Nat} (h : Reads (object (value d) s) v rest) :
    Reads (value (d + 1) ('{' :: s)) v rest := by
  obtain ⟨hlt, hv⟩ := h
  refine ⟨Nat.lt_succ_of_lt hlt, ?_⟩
  rw [value]
  split <;> rename_i hopen <;> cases hopen
  · simp only [hv]
  · contradiction

/-- Everything else is a value without parts. -/
theorem value_plain {c : Char} (d : Nat) (hspace : isSpace c = false) (hbracket : c ≠ '[')
    (hbrace : c ≠ '{') (h : plain c s = .ok (v, rest)) : Reads (value d (c :: s)) v rest := by
  refine ⟨Nat.lt_succ_of_le (length_plain h), ?_⟩
  have hskip : skipSpace (c :: s) = c :: s := List.dropWhile_cons_of_neg (by simp [hspace])
  rw [value]
  split <;> rename_i heq <;> rw [hskip] at heq <;> cases heq
  · exact absurd rfl hbracket
  · exact absurd rfl hbrace
  · split <;> rename_i hplain <;> rw [h] at hplain <;> cases hplain
    rfl

/-- A quote opens a string. -/
theorem plain_quote {cs : List Char} (h : Reads (stringBody s) cs rest) :
    plain '"' s = .ok (.string (String.ofList cs), rest) := by
  obtain ⟨hlt, hcs⟩ := h
  rw [plain, if_neg (by decide), if_neg (by decide), if_neg (by decide), if_pos rfl, hcs]

end Steps

/-! ## Lists of values -/

section Lists

variable {reader : ValueReader}

/-- What was written of a value is read as the value, wherever it ends. -/
def ReadsBack (reader : ValueReader) (v : Json) : Prop :=
  ∀ rest, Ends rest → Reads (reader (compactText v ++ rest)) v rest

theorem opens_compactItems {v : Json} (h : v.Whole) (vs : List Json) (rest : List Char) :
    Opens (compactItems (v :: vs) ++ rest) := by
  cases vs with
  | nil => exact (opens_compactText h).append rest
  | cons w vs =>
    rw [compactItems, List.append_assoc]
    exact (opens_compactText h).append _

/-- Items that were written are read if every one of them is. -/
theorem items_compactItems {v : Json} {vs : List Json} (hwhole : ∀ w ∈ v :: vs, w.Whole)
    (h : ∀ w ∈ v :: vs, ReadsBack reader w) (rest : List Char) :
    Reads (items reader (compactItems (v :: vs) ++ ']' :: rest)) (v :: vs) rest := by
  induction vs generalizing v with
  | nil => exact items_last (h v List.mem_cons_self _ (ends_cons (.inr (.inl rfl)) rest))
  | cons w vs ih =>
    obtain ⟨hv, hvs⟩ := List.forall_mem_cons.1 h
    obtain ⟨-, hwhole⟩ := List.forall_mem_cons.1 hwhole
    rw [compactItems, List.append_assoc]
    exact items_cons (hv _ (ends_cons (.inl rfl) _))
      (opens_compactItems (hwhole w List.mem_cons_self) vs _) (ih hwhole hvs)

/-- The text of fields begins with the quote of a name. -/
theorem exists_compactFields_eq_cons (name : String) (v : Json) (fs : Record Json) :
    ∃ s, compactFields ((name, v) :: fs) = '"' :: s := by
  cases fs with
  | nil => exact ⟨_, by rw [compactFields, quoted, List.cons_append]⟩
  | cons p fs =>
    exact ⟨_, by rw [compactFields, quoted, List.cons_append, List.cons_append]⟩

/-- Fields that were written are read behind others if every value of them is, and no name among
them is one of the others or comes twice. -/
theorem fields_compactFields {before fs : Record Json} {name : String} {v : Json}
    (hdistinct : (Record.keys (before ++ (name, v) :: fs)).Nodup)
    (h : ∀ w ∈ Record.values ((name, v) :: fs), ReadsBack reader w) (rest : List Char) :
    Reads (fields reader before (compactFields ((name, v) :: fs) ++ '}' :: rest))
      (before ++ (name, v) :: fs) rest := by
  induction fs generalizing before name v with
  | nil =>
    have hv : ReadsBack reader v := h v List.mem_cons_self
    have hfield := field_quoted name (hv _ (ends_cons (.inr (.inr rfl)) rest))
    rw [compactFields, List.append_assoc, ← Record.put_of_nodup hdistinct]
    exact fields_last hfield
  | cons p fs ih =>
    obtain ⟨other, w⟩ := p
    obtain ⟨hv, hfs⟩ := List.forall_mem_cons.1 h
    -- the field that is read comes behind those before it, and the others behind it
    have hbefore : before ++ (name, v) :: (other, w) :: fs =
        before.put name v ++ (other, w) :: fs := by
      rw [Record.put_of_nodup hdistinct, List.append_assoc]
      rfl
    have htext : compactFields ((name, v) :: (other, w) :: fs) ++ '}' :: rest =
        quoted name ++ ':' :: (compactText v ++ ',' ::
          (compactFields ((other, w) :: fs) ++ '}' :: rest)) := by
      rw [compactFields]
      simp only [List.append_assoc, List.cons_append]
    rw [hbefore] at hdistinct ⊢
    rw [htext]
    exact fields_cons (field_quoted name (hv _ (ends_cons (.inl rfl) _))) (ih hdistinct hfs)

/-- The text of an array is read up to its closing bracket. -/
theorem array_compactItems {vs : List Json} (hwhole : ∀ w ∈ vs, w.Whole)
    (h : ∀ w ∈ vs, ReadsBack reader w) (rest : List Char) :
    Reads (array reader (compactItems vs ++ ']' :: rest)) (.array vs) rest := by
  cases vs with
  | nil => exact ⟨Nat.lt_succ_self _, by rfl⟩
  | cons v vs =>
    exact array_items (opens_compactItems (hwhole v List.mem_cons_self) vs _)
      (items_compactItems hwhole h rest)

/-- The text of an object with distinct names is read up to its closing brace. -/
theorem object_compactFields {fs : Record Json} (hdistinct : fs.keys.Nodup)
    (h : ∀ w ∈ fs.values, ReadsBack reader w) (rest : List Char) :
    Reads (object reader (compactFields fs ++ '}' :: rest)) (.object fs) rest := by
  cases fs with
  | nil => exact ⟨Nat.lt_succ_self _, by rfl⟩
  | cons p fs =>
    obtain ⟨name, v⟩ := p
    have hfields : Reads (fields reader [] (compactFields ((name, v) :: fs) ++ '}' :: rest))
        ([] ++ (name, v) :: fs) rest := fields_compactFields hdistinct h rest
    obtain ⟨s, hs⟩ := exists_compactFields_eq_cons name v fs
    rw [hs] at hfields ⊢
    exact object_fields hfields

end Lists

/-! ## Values -/

/-- A whole number is a value without parts. -/
theorem value_integerText (d : Nat) {n : Int} (h : -Text.halfWord ≤ n ∧ n < Text.wordLimit)
    {rest : List Char} (hrest : Ends rest) :
    Reads (value d (integerText n ++ rest)) (.number (.integer n h)) rest := by
  have hnumber := signedNumber_integerText h hrest
  obtain ⟨c, r, hc, hfirst⟩ := exists_integerText_eq_cons n
  rw [hc, List.cons_append] at hnumber ⊢
  -- a sign or a digit opens nothing but a number
  have hother : ∀ e : Char, e.isDigit = false → e ≠ '-' → c ≠ e := by
    rintro e hdigit hsign rfl
    rcases hfirst with hfirst | hfirst
    · exact hsign hfirst
    · rw [hdigit] at hfirst
      cases hfirst
  have hspace : isSpace c = false := by
    rcases hfirst with rfl | hdigit
    · rfl
    · exact isSpace_of_isDigit hdigit
  refine value_plain d hspace (hother '[' rfl (by decide)) (hother '{' rfl (by decide)) ?_
  rw [plain, if_neg (hother 'n' rfl (by decide)), if_neg (hother 't' rfl (by decide)),
    if_neg (hother 'f' rfl (by decide)), if_neg (hother '"' rfl (by decide)), if_pos hfirst,
    hnumber]

/-- **Values.** A value whose numbers are whole is read as it was written, if its objects have
distinct names and it goes no deeper than the reader may. -/
theorem value_compactText {v : Json} {d : Nat} (h : v.Within d) (hwhole : v.All Whole) :
    ReadsBack (value d) v := by
  -- on the value, for every depth: its parts may go one level less deep than it may
  induction v using parts_induction generalizing d with
  | h v ih =>
  obtain ⟨hself, hparts⟩ := all_iff.1 hwhole
  intro rest hrest
  cases v with
  | null => exact value_plain d rfl (by decide) (by decide) rfl
  | bool b => cases b <;> exact value_plain d rfl (by decide) (by decide) rfl
  | string s =>
    have hstring := plain_quote (stringBody_flatMap_escaped s.toList rest)
    rw [String.ofList_toList] at hstring
    rw [compactText, quoted, List.cons_append, List.append_assoc]
    exact value_plain d rfl (by decide) (by decide) hstring
  | number n =>
    cases n with
    | integer n hn =>
      rw [compactText, Number.text]
      exact value_integerText d hn hrest
    | double x => exact hself.elim
  | array items =>
    obtain ⟨e, rfl, hitems⟩ := within_array_iff.1 h
    rw [compactText, List.cons_append, List.append_assoc]
    exact value_array (array_compactItems (fun w hw => (all_iff.1 (hparts w hw)).1)
      (fun w hw => ih w hw (hitems w hw) (hparts w hw)) rest)
  | object fields =>
    obtain ⟨hdistinct, e, rfl, hvalues⟩ := within_object_iff.1 h
    rw [compactText, List.cons_append, List.append_assoc]
    exact value_object (object_compactFields hdistinct
      (fun w hw => ih w hw (hvalues w hw) (hparts w hw)) rest)

end Reader

/-- **Texts.** The text without spaces of a value whose numbers are whole is read as the value, if
its objects have distinct names and it is not nested too deeply. -/
theorem parse_compact {v : Json} (h : v.Within Reader.depthLimit) (hwhole : v.All Whole) :
    parse v.compact = .ok v := by
  have hread := Reader.value_compactText h hwhole [] Reader.ends_nil
  rw [List.append_nil] at hread
  obtain ⟨hlt, hread⟩ := hread
  have htext : v.compact.toList = compactText v := by rw [compact, String.toList_ofList]
  rw [parse, htext, Reader.parseText]
  simp only [hread]
  rfl

end FormRehearsal.Json
