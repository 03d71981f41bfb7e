/-
# Places in JSON values

A value has parts: the items of an array, the values of an object. So what is within a value stands
at a place, which tells level by level which part is entered. What holds of a value and of everything
within it is shown level by level, and so is how deep it goes.

* `parts_induction` : what holds of a value if it holds of its parts holds of every value;
* `all_iff`, `all_array_iff`, `all_object_iff` : a property of everything within a value, level by
  level;
* `depth_array_le_iff`, `depth_object_le_iff` : how deep a value goes.
-/
import FormRehearsal.Json.Value

namespace FormRehearsal.Json

/-! ## Parts and places -/

/-- A value without the values in it: what a plain value is, how many items an array has, which
names an object has. -/
inductive Node where
  | null
  | bool (value : Bool)
  | number (value : Json.Number)
  | text (value : String)
  | array (length : Nat)
  | object (names : List String)
  deriving DecidableEq, Repr

/-- What a value is when it is not entered. -/
def node : Json → Node
  | .null => .null
  | .bool b => .bool b
  | .number n => .number n
  | .string s => .text s
  | .array items => .array items.length
  | .object fields => .object (Record.keys fields)

/-- The values in a value: the items of an array, the values of an object in the order of its names.
-/
def parts : Json → List Json
  | .array items => items
  | .object fields => Record.values fields
  | _ => []

/-- The value at a place, which tells level by level which part is entered. -/
def at? : List Nat → Json → Option Json
  | [], v => some v
  | i :: place, v => v.parts[i]?.bind (at? place)

/-- What holds of a value if it holds of its parts holds of every value. -/
theorem parts_induction {P : Json → Prop} (h : ∀ v : Json, (∀ w ∈ v.parts, P w) → P v) (v : Json) :
    P v :=
  -- what is shown of a list of items, of a list of fields and of one field
  @Json.rec P (fun items => ∀ w ∈ items, P w) (fun fields => ∀ w ∈ Record.values fields, P w)
    (fun p => P p.2)
    (h .null nofun) (fun b => h (.bool b) nofun) (fun n => h (.number n) nofun)
    (fun s => h (.string s) nofun) (fun items ih => h (.array items) ih)
    (fun fields ih => h (.object fields) ih) nofun
    (fun _ _ hv hitems => List.forall_mem_cons.2 ⟨hv, hitems⟩) nofun
    (fun _ _ hp hfields => List.forall_mem_cons.2 ⟨hp, hfields⟩) (fun _ _ hv => hv) v

/-! ## Everything within a value -/

/-- A property of a value and of everything within it. -/
def All (P : Json → Prop) (v : Json) : Prop := ∀ place w, v.at? place = some w → P w

variable {P : Json → Prop} {v w : Json}

theorem all_iff : v.All P ↔ P v ∧ ∀ w ∈ v.parts, w.All P := by
  constructor
  · intro h
    refine ⟨h [] v rfl, fun w hw place u hu => ?_⟩
    obtain ⟨i, hi⟩ := List.getElem?_of_mem hw
    exact h (i :: place) u (by rw [at?, hi]; exact hu)
  · rintro ⟨hv, hparts⟩ place u hu
    cases place with
    | nil =>
      cases hu
      exact hv
    | cons i place =>
      rw [at?, Option.bind_eq_some_iff] at hu
      obtain ⟨w, hw, hu⟩ := hu
      exact hparts w (List.mem_of_getElem? hw) place u hu

theorem all_array_iff {items : List Json} :
    (array items).All P ↔ P (array items) ∧ ∀ v ∈ items, v.All P := all_iff

theorem all_object_iff {fields : Record Json} :
    (object fields).All P ↔ P (object fields) ∧ ∀ v ∈ fields.values, v.All P := all_iff

/-! ## How deep a value goes -/

theorem depthOfItems_le_iff {items : List Json} {d : Nat} :
    depth.depthOfItems items ≤ d ↔ ∀ v ∈ items, v.depth ≤ d := by
  induction items with
  | nil => simp [depth.depthOfItems]
  | cons v items ih => rw [depth.depthOfItems, Nat.max_le, ih, List.forall_mem_cons]

theorem depthOfFields_le_iff {fields : Record Json} {d : Nat} :
    depth.depthOfFields fields ≤ d ↔ ∀ v ∈ fields.values, v.depth ≤ d := by
  induction fields with
  | nil => simp [depth.depthOfFields, Record.values]
  | cons p fields ih =>
    obtain ⟨name, v⟩ := p
    show _ ↔ ∀ w ∈ v :: Record.values fields, w.depth ≤ d
    rw [depth.depthOfFields, Nat.max_le, ih, List.forall_mem_cons]

theorem depth_array_le_iff {items : List Json} {d : Nat} :
    (array items).depth ≤ d + 1 ↔ ∀ v ∈ items, v.depth ≤ d := by
  rw [depth, Nat.add_le_add_iff_right, depthOfItems_le_iff]

theorem depth_object_le_iff {fields : Record Json} {d : Nat} :
    (object fields).depth ≤ d + 1 ↔ ∀ v ∈ fields.values, v.depth ≤ d := by
  rw [depth, Nat.add_le_add_iff_right, depthOfFields_le_iff]

/-- A plain value has nothing else within it. -/
theorem all_iff_of_depth_eq_zero (h : v.depth = 0) : v.All P ↔ P v := by
  rw [all_iff]
  refine and_iff_left ?_
  cases v with
  | array items | object fields => cases h
  | _ => nofun

end FormRehearsal.Json
