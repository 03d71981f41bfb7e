/-
# Streams as programs

A stream of steps is a program itself: its text without spaces is read as the stream that was
written. Filling changes texts only, so neither the nesting of a step nor the names of its objects
depend on the rows, and whatever a row puts into a text is escaped when it is written.

* `within_fillJson`, `whole_fillJson` : what a value keeps when it is filled;
* `parse_eq_ok_iff` : a text is a program if it is the text of its JSON value;
* `parse_compact_expand` : the text of a stream is read as the stream.
-/
import FormRehearsal.Proofs.Json.RoundTrip
import FormRehearsal.Proofs.Program.Layout

namespace FormRehearsal

/-! ## What filling keeps -/

namespace Template

variable (context : Context) {v : Json}

/-- A value that is filled goes as deep as before, and its objects have the names that they had. -/
theorem within_fillJson {d : Nat} (h : v.Within d) : (fillJson context v).Within d := by
  induction v using Json.parts_induction generalizing d with
  | h v ih =>
  cases v with
  | array items =>
    obtain ⟨e, rfl, hitems⟩ := Json.within_array_iff.1 h
    rw [fillJson, fillItems_eq_map, Json.within_array_iff]
    exact ⟨e, rfl, List.forall_mem_map.2 fun w hw => ih w hw (hitems w hw)⟩
  | object fields =>
    obtain ⟨hdistinct, e, rfl, hvalues⟩ := Json.within_object_iff.1 h
    have hparts : Record.values (fillFields context fields) =
        (Record.values fields).map (fillJson context) := by
      have h := parts_fillJson context (.object fields)
      rwa [fillJson] at h
    rw [fillJson, Json.within_object_iff, hparts, fillFields_eq_mapValues, Record.keys_mapValues]
    exact ⟨hdistinct, e, rfl, List.forall_mem_map.2 fun w hw => ih w hw (hvalues w hw)⟩
  | string s => exact Json.within_of_depth_eq_zero (by rw [fillJson]; rfl)
  | null | bool b | number n =>
    rw [fillJson]
    exact h

/-- Numbers are not filled. -/
theorem whole_fillJson (h : v.All Json.Whole) : (fillJson context v).All Json.Whole := by
  intro place w hw
  rw [at?_fillJson, Option.map_eq_some_iff] at hw
  obtain ⟨u, hu, rfl⟩ := hw
  have hwhole := h place u hu
  cases u <;> rw [fillJson] <;> exact hwhole

end Template

/-! ## Programs and their texts -/

namespace Program

/-- The steps among some items are these items, which are all objects. -/
theorem ofItems_eq_ok_iff {ordinal : Nat} {items : List Json} {program : Program} :
    ofItems ordinal items = .ok program ↔ items = program.map Json.object := by
  induction items generalizing ordinal program with
  | nil => cases program <;> simp [ofItems]
  | cons v items ih =>
    cases v with
    | object fields =>
      have hmap : ofItems ordinal (.object fields :: items) = .ok program ↔
          ∃ rest, ofItems (ordinal + 1) items = .ok rest ∧ fields :: rest = program := by
        rw [ofItems]
        cases ofItems (ordinal + 1) items <;> simp [Except.map]
      simp only [hmap, ih]
      constructor
      · rintro ⟨rest, rfl, rfl⟩
        rfl
      · intro h
        obtain ⟨step, rest, rfl, hstep, hrest⟩ := List.map_eq_cons_iff.1 h.symm
        cases hstep
        exact ⟨rest, hrest.symm, rfl⟩
    | _ => cases program <;> simp [ofItems]

/-- A text is a program if it is the text of its JSON value. -/
theorem parse_eq_ok_iff {text : String} {program : Program} :
    parse text = .ok program ↔ Json.parse text = .ok program.toJson := by
  rw [parse]
  cases Json.parse text with
  | error e => exact ⟨nofun, nofun⟩
  | ok v =>
    cases v with
    | array items => simp only [ofItems_eq_ok_iff, toJson, Except.ok.injEq, Json.array.injEq]
    | _ => exact ⟨nofun, nofun⟩

/-- Every step of a stream is a step of the program that is filled. -/
theorem exists_of_mem_expand {program : Program} {rows : List Row} {repeats : RepeatCount}
    {step : Instruction} (h : step ∈ expand program rows repeats) :
    ∃ context, ∃ raw ∈ program, fillStep context raw = step := by
  obtain ⟨context, -, hblock⟩ := List.mem_flatMap.1 h
  obtain ⟨copy, hcopy, hstep⟩ := List.mem_flatten.1 hblock
  rw [List.eq_of_mem_replicate hcopy] at hstep
  obtain ⟨raw, hraw, rfl⟩ := List.mem_map.1 hstep
  exact ⟨context, raw, hraw, rfl⟩

/-- What filling keeps holds of every step of a stream if it holds of every step of the program. -/
theorem forall_mem_expand {P : Json → Prop} {program : Program}
    (hfill : ∀ context v, P v → P (Template.fillJson context v))
    (h : ∀ v ∈ program.map Json.object, P v) (rows : List Row) (repeats : RepeatCount) :
    ∀ v ∈ (expand program rows repeats).map Json.object, P v := by
  intro v hv
  obtain ⟨step, hstep, rfl⟩ := List.mem_map.1 hv
  obtain ⟨context, raw, hraw, rfl⟩ := exists_of_mem_expand hstep
  rw [fillStep, ← Template.fillJson]
  exact hfill context _ (h _ (List.mem_map_of_mem hraw))

/-- **Streams are programs.** If a text is a program whose numbers are whole, then the stream of the
program over any rows, in any number of repetitions, is read from its text without spaces as the same
steps, whatever the rows hold: with the same values, in the same order, under the same names. -/
theorem parse_compact_expand {text : String} {program : Program} (h : parse text = .ok program)
    (hwhole : program.toJson.All Json.Whole) (rows : List Row) (repeats : RepeatCount) :
    parse (expand program rows repeats).toJson.compact = .ok (expand program rows repeats) := by
  obtain ⟨d, hd, hwithin⟩ := Json.within_array_iff.1 (Json.within_parse (parse_eq_ok_iff.1 h))
  have hsteps := (Json.all_array_iff.1 hwhole).2
  rw [parse_eq_ok_iff]
  apply Json.parse_compact
  · exact Json.within_array_iff.2 ⟨d, hd,
      forall_mem_expand (fun context _ => Template.within_fillJson context) hwithin rows repeats⟩
  · exact Json.all_array_iff.2 ⟨trivial,
      forall_mem_expand (fun context _ => Template.whole_fillJson context) hsteps rows repeats⟩

/-- One row ends the text, the array and the object that it is put into, and another one holds a
backslash, a line feed and a character below the space. -/
theorem parse_compact_expand_quotes :
    let text : String :=
      "[\x7b\"action\":\"type\",\"text\":\"\x7b\x7bvalue\x7d\x7d\",\"clear\":true\x7d," ++
        "\x7b\"keys\":[\"\x7b\x7brow.k\x7d\x7d\\\\\",-3,null]\x7d]"
    let program : Program :=
      [[("action", .string "type"), ("text", .string "\x7b\x7bvalue\x7d\x7d"),
          ("clear", .bool true)],
        [("keys", .array [.string "\x7b\x7brow.k\x7d\x7d\\", .number (.integer (-3) (by decide)),
          .null])]]
    let rows : List Row := [[("k", "\"]\x7d,\x7b")], [("v", "\\\n\x01é"), ("k", "\\u")]]
    let repeats : RepeatCount := { times := 2 }
    parse text = .ok program ∧ program.toJson.All Json.Whole ∧
      parse (expand program rows repeats).toJson.compact = .ok (expand program rows repeats) := by
  intro text program rows repeats
  have hwhole : program.toJson.All Json.Whole := by
    simp (disch := decide) [program, toJson, Json.all_array_iff, Json.all_object_iff,
      Json.all_iff_of_depth_eq_zero, Json.Whole, Record.values]
  have hwithin : program.toJson.Within Json.Reader.depthLimit := by
    refine ⟨by decide, ?_⟩
    simp (disch := decide) [program, toJson, Json.all_array_iff, Json.all_object_iff,
      Json.all_iff_of_depth_eq_zero, Json.Distinct, Record.values, Record.keys]
  have htext : program.toJson.compact = text := by decide +kernel
  have hparse : parse text = .ok program := by
    rw [← htext, parse_eq_ok_iff]
    exact Json.parse_compact hwithin hwhole
  exact ⟨hparse, hwhole, parse_compact_expand hparse hwhole rows repeats⟩

end Program

end FormRehearsal
