/-
# Records in JSON

A value with named parts is read from an object, whose other fields are passed over, or from an
array that holds the parts in their order. Parts at the end may be missing from an array, but it must
not be longer than there are parts.
-/
import FormRehearsal.Json.Value

namespace FormRehearsal.Json

/-- The first items of a list, as many as there are names. -/
def itemsInOrder : List String → List Json → Option (List (Option Json))
  | [], [] => some []
  | [], _ :: _ => none
  | _ :: names, [] => (itemsInOrder names []).map (none :: ·)
  | _ :: names, v :: r => (itemsInOrder names r).map (some v :: ·)

/-- The parts of a value by their names, in the order of the names. -/
def parts? (names : List String) : Json → Option (List (Option Json))
  | .object fields => some (names.map fun name => Record.get? name fields)
  | .array items => itemsInOrder names items
  | _ => none

/-- A part that has a value of its own when it is missing. -/
def partOr {α : Type} (byDefault : α) (read : Json → Option α) : Option Json → Option α
  | none => some byDefault
  | some v => read v

/-- A text or null. -/
def toOptionalText? : Json → Option (Option String)
  | .null => some none
  | .string s => some (some s)
  | _ => none

/-- There are as many parts as names. -/
theorem length_parts? {names : List String} {v : Json} {ps : List (Option Json)}
    (h : parts? names v = some ps) : ps.length = names.length := by
  have key : ∀ (names : List String) (items : List Json) (ps : List (Option Json)),
      itemsInOrder names items = some ps → ps.length = names.length := by
    intro names
    induction names with
    | nil => intro items ps h; cases items <;> simp_all [itemsInOrder]
    | cons name names ih =>
      intro items ps h
      cases items <;>
        · simp only [itemsInOrder, Option.map_eq_some_iff] at h
          obtain ⟨qs, hq, rfl⟩ := h
          simp [ih _ _ hq]
  cases v <;> simp only [parts?] at h
  case object => cases h; simp
  case array => exact key _ _ _ h
  all_goals cases h

end FormRehearsal.Json
