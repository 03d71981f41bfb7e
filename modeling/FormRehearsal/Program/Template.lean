/-
# Placeholders

A placeholder is `{{index}}`, `{{value}}` or `{{row.name}}`, with blanks allowed within the braces.
Filling a text goes through it once from the left: a placeholder is replaced by its meaning in a
context, and what was put in is not looked at again. In a JSON value every text is filled except the
names of fields.

* `fill_nil`, `fill_placeholder`, `fill_cons` : the three cases of filling.
-/
import FormRehearsal.Dataset.Basic
import FormRehearsal.Text.Blank
import FormRehearsal.Text.Numeral

namespace FormRehearsal.Template

/-! ## Contexts -/

/-- What placeholders stand for: the ordinal of a row, its first value, and the row. -/
structure Context where
  index : Nat
  value : String
  row : Row := []
  deriving DecidableEq, Repr

/-- The context of a row with its ordinal. -/
def Context.ofRow (index : Nat) (row : Row) : Context := ⟨index, row.values.head?.getD "", row⟩

/-- The context where there are no rows. -/
def Context.synthetic : Context := ⟨1, "", []⟩

/-- What a placeholder refers to. -/
inductive Placeholder where
  | index
  | value
  | field (name : List Char)
  deriving DecidableEq, Repr

/-- The meaning of a placeholder; a field that the row does not have is empty. -/
def Placeholder.meaning (context : Context) : Placeholder → List Char
  | index => Text.digitsOf context.index
  | value => context.value.toList
  | field name => ((context.row.get? (String.ofList name)).getD "").toList

/-! ## Finding a placeholder -/

/-- The characters of a field's name in a placeholder. -/
def isNameChar (c : Char) : Bool := c.isAlphanum || c = '_' || c = '-'

/-- The rest of a text that starts with `word`. -/
def after? : List Char → List Char → Option (List Char)
  | [], s => some s
  | _ :: _, [] => none
  | c :: word, d :: s => if d = c then after? word s else none

/-- What a text refers to at its start, and the rest. -/
def reference? (s : List Char) : Option (Placeholder × List Char) :=
  match after? "index".toList s with
  | some r => some (.index, r)
  | none =>
    match after? "value".toList s with
    | some r => some (.value, r)
    | none =>
      match after? "row.".toList s with
      | none => none
      | some r =>
        let name := r.takeWhile isNameChar
        if name.isEmpty then none else some (.field name, r.dropWhile isNameChar)

/-- The placeholder at the start of a text, and the rest. -/
def placeholder? (s : List Char) : Option (Placeholder × List Char) :=
  match after? ['{', '{'] s with
  | none => none
  | some r =>
    match reference? (Text.trimStart r) with
    | none => none
    | some (p, r) => (after? ['}', '}'] (Text.trimStart r)).map fun r => (p, r)

theorem length_after? {word s r : List Char} (h : after? word s = some r) :
    r.length + word.length = s.length := by
  induction word generalizing s with
  | nil => cases h; rfl
  | cons c word ih =>
    cases s with
    | nil => cases h
    | cons d s =>
      simp only [after?] at h
      split at h
      · have := ih h; simp only [List.length_cons]; omega
      · cases h

theorem length_reference? {s r : List Char} {p : Placeholder} (h : reference? s = some (p, r)) :
    r.length ≤ s.length := by
  unfold reference? at h
  split at h
  · rename_i ha; have := length_after? ha; cases h; omega
  · split at h
    · rename_i ha; have := length_after? ha; cases h; omega
    · split at h
      · cases h
      · rename_i t ha
        have := length_after? ha
        simp only at h
        split at h
        · cases h
        · cases h
          have := (List.dropWhile_sublist isNameChar (l := t)).length_le
          omega

/-- A placeholder takes up some of the text. -/
theorem length_placeholder? {s r : List Char} {p : Placeholder}
    (h : placeholder? s = some (p, r)) : r.length < s.length := by
  unfold placeholder? at h
  split at h
  · cases h
  · rename_i t ha
    have h1 := length_after? ha
    have h2 := (List.dropWhile_sublist Text.isBlank (l := t)).length_le
    split at h
    · cases h
    · rename_i q u hr
      have h3 := length_reference? hr
      have h4 := (List.dropWhile_sublist Text.isBlank (l := u)).length_le
      simp only [Option.map_eq_some_iff, Prod.mk.injEq] at h
      obtain ⟨w, hw, -, rfl⟩ := h
      have h5 := length_after? hw
      simp only [Text.trimStart, List.length_cons, List.length_nil] at *
      omega

/-! ## Filling -/

/-- The text with every placeholder replaced by its meaning. -/
def fill (context : Context) : List Char → List Char
  | [] => []
  | c :: r =>
    match h : placeholder? (c :: r) with
    | some (p, rest) =>
      have := length_placeholder? h
      p.meaning context ++ fill context rest
    | none => c :: fill context r
termination_by s => s.length
decreasing_by
  · assumption
  · simp

/-- `fill` on strings. -/
def fillString (context : Context) (s : String) : String :=
  String.ofList (fill context s.toList)

mutual

/-- The value with every text in it filled. -/
def fillJson (context : Context) : Json → Json
  | .string s => .string (fillString context s)
  | .array items => .array (fillItems context items)
  | .object fields => .object (fillFields context fields)
  | .null => .null
  | .bool b => .bool b
  | .number n => .number n

/-- Items with every text in them filled. -/
def fillItems (context : Context) : List Json → List Json
  | [] => []
  | v :: r => fillJson context v :: fillItems context r

/-- Fields with every text in their values filled. -/
def fillFields (context : Context) : List (String × Json) → List (String × Json)
  | [] => []
  | (k, v) :: r => (k, fillJson context v) :: fillFields context r

end

/-! ## The cases of filling -/

@[simp] theorem fill_nil (context : Context) : fill context [] = [] := by rw [fill]

/-- A placeholder at the start gives way to its meaning. -/
theorem fill_placeholder {context : Context} {s r : List Char} {p : Placeholder}
    (h : placeholder? s = some (p, r)) :
    fill context s = p.meaning context ++ fill context r := by
  cases s with
  | nil => simp [placeholder?, after?] at h
  | cons c s =>
    rw [fill]
    split
    · rename_i h'; rw [h] at h'; cases h'; rfl
    · rename_i h'; rw [h] at h'; cases h'

/-- A character that starts no placeholder stays. -/
theorem fill_cons {context : Context} {c : Char} {s : List Char}
    (h : placeholder? (c :: s) = none) : fill context (c :: s) = c :: fill context s := by
  rw [fill]
  split
  · rename_i h'; rw [h] at h'; cases h'
  · rfl

end FormRehearsal.Template
