/-
# What is read

Whatever the reader gives goes no deeper than it may, and no object in it has a name twice, since a
name that is there already keeps its place.

* `items_all`, `fields_all` : what holds of every value that is read holds of items and fields;
* `within_value`, `within_parse` : how values are that are read.
-/
import FormRehearsal.Json.Reader
import FormRehearsal.Proofs.Json.Places
import Mathlib.Data.List.Nodup

namespace FormRehearsal

/-! ## Distinct names -/

/-- A record with one more value has distinct names if it had them before. -/
theorem Record.nodup_keys_put {α : Type} {r : Record α} (h : r.keys.Nodup) (name : String)
    (value : α) : (r.put name value).keys.Nodup := by
  by_cases hm : name ∈ r.keys
  · rwa [Record.keys_put_of_mem value hm]
  · rw [Record.keys_put_of_not_mem value hm, ← List.concat_eq_append]
    exact h.concat hm

/-- What holds of the values of a record and of one more holds of the values with it. -/
theorem Record.values_put {α : Type} {P : α → Prop} {r : Record α} (h : ∀ v ∈ r.values, P v)
    (name : String) {value : α} (hv : P value) : ∀ v ∈ (r.put name value).values, P v := by
  intro v hm
  obtain ⟨p, hp, rfl⟩ := List.mem_map.1 hm
  rcases Record.mem_put hp with rfl | hp
  · exact hv
  · exact h _ (List.mem_map_of_mem hp)

namespace Json

/-- An object has no name twice. -/
def Distinct : Json → Prop
  | .object fields => (Record.keys fields).Nodup
  | _ => True

/-- A value goes at most `d` levels deep, and no object in it has a name twice. -/
structure Within (d : Nat) (v : Json) : Prop where
  depth : v.depth ≤ d
  distinct : v.All Distinct

variable {d : Nat}

/-- A value without parts is of any depth. -/
theorem within_of_depth_eq_zero {v : Json} (h : v.depth = 0) : v.Within d where
  depth := h ▸ Nat.zero_le d
  distinct := by
    rw [all_iff_of_depth_eq_zero h]
    cases v with
    | object fields => cases h
    | _ => exact trivial

theorem within_array_iff {items : List Json} :
    (array items).Within d ↔ ∃ e, d = e + 1 ∧ ∀ v ∈ items, v.Within e := by
  constructor
  · intro h
    cases d with
    | zero => exact absurd h.depth (Nat.not_succ_le_zero _)
    | succ e =>
      exact ⟨e, rfl, fun v hv =>
        ⟨depth_array_le_iff.1 h.depth v hv, (all_array_iff.1 h.distinct).2 v hv⟩⟩
  · rintro ⟨e, rfl, h⟩
    exact ⟨depth_array_le_iff.2 fun v hv => (h v hv).depth,
      all_array_iff.2 ⟨trivial, fun v hv => (h v hv).distinct⟩⟩

theorem within_object_iff {fields : Record Json} :
    (object fields).Within d ↔
      fields.keys.Nodup ∧ ∃ e, d = e + 1 ∧ ∀ v ∈ fields.values, v.Within e := by
  constructor
  · intro h
    obtain ⟨hdistinct, hparts⟩ := all_object_iff.1 h.distinct
    cases d with
    | zero => exact absurd h.depth (Nat.not_succ_le_zero _)
    | succ e =>
      exact ⟨hdistinct, e, rfl, fun v hv => ⟨depth_object_le_iff.1 h.depth v hv, hparts v hv⟩⟩
  · rintro ⟨hdistinct, e, rfl, h⟩
    exact ⟨depth_object_le_iff.2 fun v hv => (h v hv).depth,
      all_object_iff.2 ⟨hdistinct, fun v hv => (h v hv).distinct⟩⟩

namespace Reader

/-! ## Items and fields -/

section Lists

variable {reader : ValueReader} {Q : Json → Prop}

/-- What holds of every value that is read holds of the items that are read. -/
theorem items_all (hQ : ∀ {s v r}, reader s = .ok (v, r) → Q v) {s : List Char} {vs : List Json}
    {r : Rest s} (h : items reader s = .ok (vs, r)) : ∀ v ∈ vs, Q v := by
  fun_induction items reader s generalizing vs with
  | case3 _ _ _ _ hv =>
    -- the last item
    cases h
    exact List.forall_mem_singleton.2 (hQ hv)
  | case7 _ _ _ _ hv _ _ _ _ _ _ hvs _ _ ih =>
    cases h
    exact List.forall_mem_cons.2 ⟨hQ hv, ih hvs⟩
  | case1 | case2 | case4 | case5 | case6 | case8 => cases h

theorem field_all (hQ : ∀ {s v r}, reader s = .ok (v, r) → Q v) {s : List Char} {name : String}
    {v : Json} {r : Rest s} (h : field reader s = .ok ((name, v), r)) : Q v := by
  revert h
  fun_cases field reader s with
  | case4 =>
    rename_i hv
    intro h
    cases h
    exact hQ hv
  | case1 | case2 | case3 | case5 | case6 | case7 | case8 => nofun

/-- What holds of every value that is read, and of those before it, holds of the fields that are
read; and they have distinct names if those before them have. -/
theorem fields_all (hQ : ∀ {s v r}, reader s = .ok (v, r) → Q v) {before result : Record Json}
    {s : List Char} {r : Rest s} (h : fields reader before s = .ok (result, r))
    (hd : before.keys.Nodup) (hbefore : ∀ v ∈ before.values, Q v) :
    result.keys.Nodup ∧ ∀ v ∈ result.values, Q v := by
  fun_induction fields reader before s generalizing result with
  | case3 _ _ name _ _ _ hv =>
    -- the last field
    cases h
    exact ⟨Record.nodup_keys_put hd name _, Record.values_put hbefore name (field_all hQ hv)⟩
  | case5 _ _ name _ _ _ hv _ _ _ _ _ _ hfs ih =>
    cases h
    exact ih hfs (Record.nodup_keys_put hd name _)
      (Record.values_put hbefore name (field_all hQ hv))
  | case1 | case2 | case4 | case6 => cases h

end Lists

/-! ## Values -/

theorem eq_of_literal {v w : Json} {letters s r : List Char}
    (h : literal v letters s = .ok (w, r)) : w = v := by
  induction letters generalizing s with
  | nil =>
    cases h
    rfl
  | cons c letters ih =>
    cases s with
    | nil => cases h
    | cons e t =>
      rw [literal] at h
      split at h
      · exact ih h
      · cases h

/-- What is read as no array and no object holds no other values. -/
theorem depth_plain {c : Char} {s r : List Char} {v : Json} (h : plain c s = .ok (v, r)) :
    v.depth = 0 := by
  revert h
  fun_cases plain c s with
  | case1 | case2 | case3 =>
    -- a literal
    intro h
    rw [eq_of_literal h]
    rfl
  | case5 | case7 =>
    -- a string or a number
    intro h
    cases h
    rfl
  | case4 | case6 | case8 => nofun

theorem within_of_array (hd : ∀ {s v r}, value d s = .ok (v, r) → v.Within d) {s : List Char}
    {v : Json} {r : Rest s} (h : array (value d) s = .ok (v, r)) : v.Within (d + 1) := by
  revert h
  fun_cases array (value d) s with
  | case2 =>
    intro h
    cases h
    exact within_array_iff.2 ⟨d, rfl, nofun⟩
  | case4 _ _ hvs =>
    intro h
    cases h
    exact within_array_iff.2 ⟨d, rfl, items_all hd hvs⟩
  | case1 | case3 => nofun

theorem within_of_object (hd : ∀ {s v r}, value d s = .ok (v, r) → v.Within d) {s : List Char}
    {v : Json} {r : Rest s} (h : object (value d) s = .ok (v, r)) : v.Within (d + 1) := by
  revert h
  fun_cases object (value d) s with
  | case2 =>
    intro h
    cases h
    exact within_object_iff.2 ⟨List.nodup_nil, d, rfl, nofun⟩
  | case4 _ _ _ _ hfs =>
    intro h
    cases h
    obtain ⟨hdistinct, hvalues⟩ := fields_all hd hfs List.nodup_nil nofun
    exact within_object_iff.2 ⟨hdistinct, d, rfl, hvalues⟩
  | case1 | case3 | case5 => nofun

/-- How a value is read: as an array or an object whose parts may go one level less deep, or as none
of these. -/
theorem value_cases {s : List Char} {v : Json} {r : Rest s} (h : value d s = .ok (v, r)) :
    (∃ e t u, d = e + 1 ∧ array (value e) t = .ok (v, u)) ∨
      (∃ e t u, d = e + 1 ∧ object (value e) t = .ok (v, u)) ∨
      ∃ c t u, plain c t = .ok (v, u) := by
  unfold value at h
  split at h
  · cases h
  · cases d with
    | zero => cases h
    | succ e =>
      simp only at h
      split at h
      · cases h
      · rename_i harray
        cases h
        exact .inl ⟨e, _, _, rfl, harray⟩
  · cases d with
    | zero => cases h
    | succ e =>
      simp only at h
      split at h
      · cases h
      · rename_i hobject
        cases h
        exact .inr (.inl ⟨e, _, _, rfl, hobject⟩)
  · split at h
    · cases h
    · rename_i hplain
      cases h
      exact .inr (.inr ⟨_, _, _, hplain⟩)

/-- **Reading.** A value that is read goes no deeper than it may, and no object in it has a name
twice. -/
theorem within_value {s : List Char} {v : Json} {r : Rest s} (h : value d s = .ok (v, r)) :
    v.Within d := by
  induction d generalizing s v with
  | zero =>
    obtain ⟨e, t, u, he, -⟩ | ⟨e, t, u, he, -⟩ | ⟨c, t, u, hplain⟩ := value_cases h
    · cases he
    · cases he
    · exact within_of_depth_eq_zero (depth_plain hplain)
  | succ d ih =>
    obtain ⟨e, t, u, he, harray⟩ | ⟨e, t, u, he, hobject⟩ | ⟨c, t, u, hplain⟩ := value_cases h
    · cases he
      exact within_of_array ih harray
    · cases he
      exact within_of_object ih hobject
    · exact within_of_depth_eq_zero (depth_plain hplain)

theorem within_parseText {text : List Char} {v : Json} (h : parseText text = .ok v) :
    v.Within depthLimit := by
  unfold parseText at h
  split at h
  · cases h
  · rename_i hv
    split at h
    · cases h
      exact within_value hv
    · cases h

end Reader

theorem within_parse {text : String} {v : Json} (h : parse text = .ok v) :
    v.Within Reader.depthLimit := by
  rw [parse] at h
  cases hread : Reader.parseText text.toList with
  | error e =>
    rw [hread] at h
    cases h
  | ok w =>
    rw [hread] at h
    cases h
    exact Reader.within_parseText hread

end Json

end FormRehearsal
