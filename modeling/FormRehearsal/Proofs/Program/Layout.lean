/-
# The layout of a stream

A program that is laid out over rows is a stream of blocks of one length: a block for every row, in
it one for every repetition, in it one step for every step of the program. So the place of a step in
the stream tells the row, the repetition and the step that it stands for. The step there is that
step of the program with its texts filled, once, from the context of the row, and it differs in
nothing else: at every place within its values there is a value of the same make.

* `node_fillJson`, `parts_fillJson` : what filling does to a value, level by level;
* `expand_layout` : which step stands where.
-/
import FormRehearsal.Program.Expansion
import FormRehearsal.Proofs.Json.Places

namespace FormRehearsal

/-! ## Values that are filled -/

namespace Template

/-- A text is filled, and everything else stays. -/
def fillNode (context : Context) : Json.Node → Json.Node
  | .text s => .text (fillString context s)
  | other => other

variable (context : Context)

theorem fillItems_eq_map (items : List Json) :
    fillItems context items = items.map (fillJson context) := by
  induction items with
  | nil => rfl
  | cons v r ih => rw [fillItems, ih, List.map_cons]

theorem fillFields_eq_mapValues (fields : Record Json) :
    fillFields context fields = fields.mapValues (fillJson context) := by
  induction fields with
  | nil => rfl
  | cons p r ih =>
    rw [fillFields, ih]
    rfl

/-- At its outermost level a value changes only if it is a text. -/
theorem node_fillJson (v : Json) : (fillJson context v).node = fillNode context v.node := by
  cases v with
  | array items => simp [fillJson, Json.node, fillNode, fillItems_eq_map]
  | object fields => simp [fillJson, Json.node, fillNode, fillFields_eq_mapValues]
  | _ => simp [fillJson, Json.node, fillNode]

/-- The parts of a value are filled each by itself. -/
theorem parts_fillJson (v : Json) :
    (fillJson context v).parts = v.parts.map (fillJson context) := by
  cases v with
  | array items => rw [fillJson, Json.parts, Json.parts, fillItems_eq_map]
  | object fields =>
    rw [fillJson, Json.parts, Json.parts, fillFields_eq_mapValues]
    simp [Record.values, Record.mapValues, Function.comp_def]
  | _ => simp [fillJson, Json.parts]

/-- What is at a place of a filled value is what is there in the value, filled. -/
theorem at?_fillJson (place : List Nat) (v : Json) :
    (fillJson context v).at? place = (v.at? place).map (fillJson context) := by
  induction place generalizing v with
  | nil => rfl
  | cons i place ih =>
    rw [Json.at?, Json.at?, parts_fillJson, List.getElem?_map]
    cases v.parts[i]? with
    | none => rfl
    | some part => exact ih part

end Template

/-! ## Blocks of one length -/

section Blocks

variable {α : Type} {blocks : List (List α)} {n : Nat}

theorem length_flatten_of_blocks (h : ∀ b ∈ blocks, b.length = n) :
    blocks.flatten.length = blocks.length * n := by
  induction blocks with
  | nil => simp
  | cons b r ih =>
    rw [List.flatten_cons, List.length_append, h b List.mem_cons_self,
      ih fun c hc => h c (List.mem_cons_of_mem b hc), List.length_cons, Nat.succ_mul, Nat.add_comm]

/-- The element of a number in the block of a number. -/
theorem getElem?_flatten_of_blocks (h : ∀ b ∈ blocks, b.length = n) (i : Nat) {j : Nat}
    (hj : j < n) : blocks.flatten[i * n + j]? = blocks[i]?.bind fun b => b[j]? := by
  induction blocks generalizing i with
  | nil => simp
  | cons b r ih =>
    have hb := h b List.mem_cons_self
    rw [List.flatten_cons]
    cases i with
    | zero =>
      rw [Nat.zero_mul, Nat.zero_add, List.getElem?_append_left (hb ▸ hj)]
      rfl
    | succ i =>
      have hplace : (i + 1) * n + j = b.length + (i * n + j) := by
        rw [hb, Nat.succ_mul]
        omega
      rw [hplace, List.getElem?_append_right (Nat.le_add_right _ _), Nat.add_sub_cancel_left,
        ih fun c hc => h c (List.mem_cons_of_mem b hc)]
      rfl

end Blocks

/-! ## The layout -/

namespace Program

/-- The context of the row of an index, which is the empty row if there is none. -/
def contextAt (rows : List Row) (i : Nat) : Template.Context where
  index := i + 1
  value := ((rows[i]?.getD []).values.head?).getD ""
  row := rows[i]?.getD []

/-- A step is another one filled from a context: it has the same names in the same order, and at
every place within it there is a value of the same make, in which texts, and only they, are filled.
-/
structure FilledFrom (context : Template.Context) (raw step : Instruction) : Prop where
  names : step.keys = raw.keys
  nodes : ∀ place, ((Json.object step).at? place).map Json.node =
    ((Json.object raw).at? place).map fun v => Template.fillNode context v.node

theorem filledFrom_fillStep (context : Template.Context) (raw : Instruction) :
    FilledFrom context raw (fillStep context raw) where
  names := by
    rw [fillStep, Template.fillFields_eq_mapValues]
    exact Record.keys_mapValues _ raw
  nodes := by
    intro place
    have hstep : Json.object (fillStep context raw) = Template.fillJson context (.object raw) := by
      rw [Template.fillJson, fillStep]
    rw [hstep, Template.at?_fillJson, Option.map_map]
    cases (Json.object raw).at? place with
    | none => rfl
    | some v => exact congrArg some (Template.node_fillJson context v)

theorem getElem?_contextsFrom (ordinal : Nat) (rows : List Row) (i : Nat) :
    (contextsFrom ordinal rows)[i]? = rows[i]?.map (Template.Context.ofRow (ordinal + i)) := by
  induction rows generalizing ordinal i with
  | nil => rfl
  | cons row rows ih =>
    cases i with
    | zero => rfl
    | succ i =>
      rw [contextsFrom, List.getElem?_cons_succ, List.getElem?_cons_succ, ih,
        Nat.succ_add_eq_add_succ]

theorem length_contextsFrom (ordinal : Nat) (rows : List Row) :
    (contextsFrom ordinal rows).length = rows.length := by
  induction rows generalizing ordinal with
  | nil => rfl
  | cons row rows ih => rw [contextsFrom, List.length_cons, List.length_cons, ih]

/-- There is a context for every row, and one if there is no row. -/
theorem length_contexts (rows : List Row) : (contexts rows).length = max rows.length 1 := by
  cases rows with
  | nil => rfl
  | cons row rows =>
    rw [contexts, length_contextsFrom, List.length_cons]
    · omega
    · exact List.cons_ne_nil row rows

theorem getElem?_contexts {rows : List Row} {i : Nat} (hi : i < max rows.length 1) :
    (contexts rows)[i]? = some (contextAt rows i) := by
  cases rows with
  | nil =>
    obtain rfl : i = 0 := by simp at hi; exact hi
    rfl
  | cons row rows =>
    have hi' : i < (row :: rows).length := by simp at hi ⊢; omega
    rw [contexts, getElem?_contextsFrom, List.getElem?_eq_getElem hi', Option.map_some]
    · simp [Template.Context.ofRow, contextAt, List.getElem?_eq_getElem hi', Nat.add_comm]
    · exact List.cons_ne_nil row rows

/-- The copies of a program for one row. -/
def copies (program : Program) (times : Nat) : Program := (List.replicate times program).flatten

theorem length_copies (program : Program) (times : Nat) :
    (copies program times).length = times * program.length := by
  rw [copies, length_flatten_of_blocks (n := program.length), List.length_replicate]
  intro b hb
  rw [List.eq_of_mem_replicate hb]

/-- In every copy of a program each step has the place that it has in the program. -/
theorem getElem?_copies (program : Program) {times r j : Nat} (hr : r < times)
    (hj : j < program.length) :
    (copies program times)[r * program.length + j]? = program[j]? := by
  rw [copies, getElem?_flatten_of_blocks _ r hj]
  · rw [List.getElem?_replicate_of_lt hr]
    rfl
  · intro b hb
    rw [List.eq_of_mem_replicate hb]

/-- The blocks of a stream, one for every row. -/
def rowBlocks (program : Program) (rows : List Row) (repeats : RepeatCount) : List Program :=
  (contexts rows).map fun context => copies (program.map (fillStep context)) repeats.times

theorem length_of_mem_rowBlocks {program : Program} {rows : List Row} {repeats : RepeatCount}
    {b : Program} (h : b ∈ rowBlocks program rows repeats) :
    b.length = repeats.times * program.length := by
  obtain ⟨context, -, rfl⟩ := List.mem_map.1 h
  rw [length_copies, List.length_map]

theorem expand_eq_flatten (program : Program) (rows : List Row) (repeats : RepeatCount) :
    expand program rows repeats = (rowBlocks program rows repeats).flatten := by
  rw [expand, rowBlocks, List.flatMap_def]
  rfl

/-- A stream is empty only if the program is, since there is a context and a repetition. -/
theorem expand_eq_nil_iff (program : Program) (rows : List Row) (repeats : RepeatCount) :
    expand program rows repeats = [] ↔ program = [] := by
  have hlength : (expand program rows repeats).length =
      max rows.length 1 * (repeats.times * program.length) := by
    rw [expand_eq_flatten, length_flatten_of_blocks fun _ => length_of_mem_rowBlocks, rowBlocks,
      List.length_map, length_contexts]
  have hrows : max rows.length 1 ≠ 0 := by omega
  rw [← List.length_eq_zero_iff, hlength, Nat.mul_eq_zero, Nat.mul_eq_zero, List.length_eq_zero_iff]
  simp only [hrows, Nat.ne_of_gt repeats.pos, false_or]

/-- **The layout.** A stream has a step for every row (or for one empty row), repetition and step of
the program. Rows come one after another, within a row its repetitions, within a repetition the
steps of the program; each is the step of the program filled from the context of the row. -/
theorem expand_layout (program : Program) (rows : List Row) (repeats : RepeatCount) :
    let n := max rows.length 1
    let k := repeats.times
    let m := program.length
    (expand program rows repeats).length = n * k * m ∧
      (∀ i r j, i < n → r < k → ∀ hj : j < m, ∃ step,
        (expand program rows repeats)[i * k * m + r * m + j]? = some step ∧
          FilledFrom (contextAt rows i) program[j] step) ∧
      expand program [] repeats = expand program [[]] repeats := by
  intro n k m
  refine ⟨?_, ?_, rfl⟩
  · rw [expand_eq_flatten, length_flatten_of_blocks fun _ => length_of_mem_rowBlocks, rowBlocks,
      List.length_map, length_contexts, Nat.mul_assoc]
  · intro i r j hi hr hj
    -- the place within the block of the row
    have hplace : r * m + j < k * m := by
      calc r * m + j < r * m + m := Nat.add_lt_add_left hj _
        _ = (r + 1) * m := (Nat.succ_mul r m).symm
        _ ≤ k * m := Nat.mul_le_mul_right m hr
    have hcopy : (copies (program.map (fillStep (contextAt rows i))) k)[r * m + j]? =
        some (fillStep (contextAt rows i) program[j]) := by
      have hget := getElem?_copies (program.map (fillStep (contextAt rows i))) hr
        (j := j) (by rw [List.length_map]; exact hj)
      rw [List.length_map, List.getElem?_map, List.getElem?_eq_getElem hj] at hget
      exact hget
    refine ⟨fillStep (contextAt rows i) program[j], ?_, filledFrom_fillStep _ _⟩
    rw [expand_eq_flatten, Nat.add_assoc, Nat.mul_assoc,
      getElem?_flatten_of_blocks (fun _ => length_of_mem_rowBlocks) i hplace, rowBlocks,
      List.getElem?_map, getElem?_contexts hi]
    exact hcopy

/-- The second step of the second repetition for the second of two rows. -/
theorem expand_layout_two_rows :
    let program : Program :=
      [[("action", .string "wait")], [("keys", .array [.string "\x7b\x7bindex\x7d\x7d", .null])]]
    let rows : List Row := [[("q", "a")], [("q", "b")]]
    let repeats : RepeatCount := { times := 2 }
    ∃ step, (expand program rows repeats)[7]? = some step ∧
      FilledFrom { index := 2, value := "b", row := [("q", "b")] }
        [("keys", .array [.string "\x7b\x7bindex\x7d\x7d", .null])] step := by
  intro program rows repeats
  exact (expand_layout program rows repeats).2.1 1 1 1 (by decide) (by decide) (by decide)

end Program

end FormRehearsal
