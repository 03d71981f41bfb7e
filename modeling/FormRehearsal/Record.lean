/-
# Ordered records

A record is a list of named values. Putting a value under a name that is there already keeps the
name's place; a new name comes last. So the names of a record are in the order of their first
appearance, which is the order in which records are written.

* `get?_put_self`, `get?_put_of_ne` : what is read after a value was put;
* `keys_put_of_mem`, `keys_put_of_not_mem` : the names after a value was put;
* `keys_ofPairs`, `get?_ofPairs_of_last`, `ofPairs_of_nodup` : the record of some pairs.
-/

namespace FormRehearsal

/-- Named values in the order of their first appearance. -/
abbrev Record (α : Type) := List (String × α)

namespace Record

variable {α β : Type}

/-- The value of a name. -/
def get? (name : String) : Record α → Option α
  | [] => none
  | (k, v) :: r => if k = name then some v else get? name r

/-- The record with `value` under `name`, in the place that the name has or else at the end. -/
def put (name : String) (value : α) : Record α → Record α
  | [] => [(name, value)]
  | (k, v) :: r => if k = name then (k, value) :: r else (k, v) :: put name value r

/-- The record of some pairs that are put one after another. -/
def ofPairs (pairs : List (String × α)) : Record α :=
  pairs.foldl (fun r p => r.put p.1 p.2) []

/-- The names of a record, in order. -/
def keys (r : Record α) : List String := r.map Prod.fst

/-- The values of a record, in order. -/
def values (r : Record α) : List α := r.map Prod.snd

/-- The record with every value changed by `f`. -/
def mapValues (f : α → β) (r : Record α) : Record β := r.map fun (k, v) => (k, f v)

/-! ## Reading after putting -/

@[simp] theorem get?_put_self (name : String) (value : α) (r : Record α) :
    (r.put name value).get? name = some value := by
  induction r with
  | nil => simp [put, get?]
  | cons p r ih =>
    obtain ⟨k, v⟩ := p
    by_cases h : k = name <;> simp [put, get?, h, ih]

theorem get?_put_of_ne {name other : String} (value : α) (r : Record α) (h : other ≠ name) :
    (r.put name value).get? other = r.get? other := by
  induction r with
  | nil => simp [put, get?, Ne.symm h]
  | cons p r ih =>
    obtain ⟨k, v⟩ := p
    by_cases hk : k = name
    · subst hk; simp [put, get?, Ne.symm h]
    · simp only [put, if_neg hk, get?, ih]

/-! ## The names of a record -/

/-- A name that is there keeps its place. -/
theorem keys_put_of_mem {name : String} (value : α) {r : Record α} (h : name ∈ r.keys) :
    (r.put name value).keys = r.keys := by
  induction r with
  | nil => simp [keys] at h
  | cons p r ih =>
    obtain ⟨k, v⟩ := p
    by_cases hk : k = name
    · simp [put, keys, hk]
    · have h' : name ∈ keys r := by
        simpa [keys, Ne.symm hk] using h
      simpa [put, keys, hk] using ih h'

/-- A new name comes last. -/
theorem keys_put_of_not_mem {name : String} (value : α) {r : Record α} (h : name ∉ r.keys) :
    (r.put name value).keys = r.keys ++ [name] := by
  induction r with
  | nil => simp [put, keys]
  | cons p r ih =>
    obtain ⟨k, v⟩ := p
    have hk : k ≠ name := by rintro rfl; simp [keys] at h
    have h' : name ∉ keys r := by
      intro hm; exact h (by simpa [keys] using Or.inr (by simpa [keys] using hm))
    simpa [put, keys, hk] using ih h'

/-- A new name comes last with its value. -/
theorem put_of_not_mem {name : String} (value : α) {r : Record α} (h : name ∉ r.keys) :
    r.put name value = r ++ [(name, value)] := by
  induction r with
  | nil => rfl
  | cons p r ih =>
    obtain ⟨k, v⟩ := p
    have h' : name ≠ k ∧ name ∉ keys r := by simpa [keys] using h
    rw [put, if_neg (Ne.symm h'.1), ih h'.2]
    rfl

/-- A name that comes once comes behind those before it. -/
theorem put_of_nodup {name : String} {value : α} {r rest : Record α}
    (h : (keys (r ++ (name, value) :: rest)).Nodup) : r.put name value = r ++ [(name, value)] := by
  apply put_of_not_mem
  intro hm
  rw [keys, List.map_append] at h
  exact (List.nodup_append.1 h).2.2 _ hm _ List.mem_cons_self rfl

@[simp] theorem keys_mapValues (f : α → β) (r : Record α) : (r.mapValues f).keys = r.keys := by
  simp [keys, mapValues, Function.comp_def]

/-! ## Records of pairs -/

/-- Pairs that are put into a record add the names that are new to it. -/
theorem keys_foldl_put (pairs : List (String × α)) (r : Record α) :
    keys (pairs.foldl (fun r p => r.put p.1 p.2) r) =
      r.keys ++ ((pairs.map Prod.fst).removeAll r.keys).eraseDups := by
  induction pairs generalizing r with
  | nil => exact (List.append_nil _).symm
  | cons p pairs ih =>
    rw [List.foldl_cons, ih, List.map_cons]
    by_cases h : p.1 ∈ r.keys
    · rw [keys_put_of_mem p.2 h]
      simp [List.removeAll, h]
    · have hnew : (pairs.map Prod.fst).removeAll (r.keys ++ [p.1]) =
          ((pairs.map Prod.fst).removeAll r.keys).filter (fun k => !k == p.1) := by
        simp only [List.removeAll, List.filter_filter]
        apply List.filter_congr
        intro k _
        by_cases hk : k = p.1 <;> simp [hk]
      rw [keys_put_of_not_mem p.2 h, hnew, List.append_assoc]
      simp [List.removeAll, h, List.eraseDups_cons]

/-- The names of a record of pairs are those of the pairs, each once. -/
theorem keys_ofPairs (pairs : List (String × α)) :
    (ofPairs pairs).keys = (pairs.map Prod.fst).eraseDups := by
  rw [ofPairs, keys_foldl_put]
  simp [keys, List.removeAll, List.filter_eq_self.2]

/-- Pairs with other names that are put into a record leave the value of a name alone. -/
theorem get?_foldl_put {name : String} {pairs : List (String × α)} (h : name ∉ pairs.map Prod.fst)
    (r : Record α) : (pairs.foldl (fun r p => put p.1 p.2 r) r).get? name = r.get? name := by
  induction pairs generalizing r with
  | nil => rfl
  | cons p pairs ih =>
    rw [List.map_cons, List.mem_cons, not_or] at h
    rw [List.foldl_cons, ih h.2, get?_put_of_ne p.2 r h.1]

/-- A name has the value of the last pair with it. -/
theorem get?_ofPairs_of_last {name : String} {value : α} {before after : List (String × α)}
    (h : name ∉ after.map Prod.fst) :
    (ofPairs (before ++ (name, value) :: after)).get? name = some value := by
  rw [ofPairs, List.foldl_append, List.foldl_cons, get?_foldl_put h, get?_put_self]

theorem mem_put {name : String} {value : α} {r : Record α} {p : String × α}
    (h : p ∈ r.put name value) : p = (name, value) ∨ p ∈ r := by
  induction r with
  | nil => exact Or.inl (List.mem_singleton.1 h)
  | cons q r ih =>
    obtain ⟨k, v⟩ := q
    rw [put] at h
    split at h
    · rename_i hk
      subst hk
      rcases List.mem_cons.1 h with h | h
      · exact Or.inl h
      · exact Or.inr (List.mem_cons_of_mem _ h)
    · rcases List.mem_cons.1 h with rfl | h
      · exact Or.inr List.mem_cons_self
      · exact (ih h).imp id (List.mem_cons_of_mem _)

/-- A record of pairs holds none but them. -/
theorem mem_of_mem_ofPairs {pairs : List (String × α)} {p : String × α} (h : p ∈ ofPairs pairs) :
    p ∈ pairs := by
  have all : ∀ (pairs r : List (String × α)),
      p ∈ pairs.foldl (fun r p => put p.1 p.2 r) r → p ∈ r ∨ p ∈ pairs := by
    intro pairs
    induction pairs with
    | nil => exact fun r hp => Or.inl hp
    | cons q pairs ih =>
      intro r hp
      rcases ih _ hp with hp | hp
      · rcases mem_put hp with hp | hp
        · exact Or.inr (hp ▸ List.mem_cons_self)
        · exact Or.inl hp
      · exact Or.inr (List.mem_cons_of_mem q hp)
  rcases all pairs [] h with hp | hp
  · cases hp
  · exact hp

/-- Pairs with distinct names are a record. -/
theorem ofPairs_of_nodup {pairs : List (String × α)} (h : (pairs.map Prod.fst).Nodup) :
    ofPairs pairs = pairs := by
  have all : ∀ (pairs r : List (String × α)), ((r ++ pairs).map Prod.fst).Nodup →
      pairs.foldl (fun r p => put p.1 p.2 r) r = r ++ pairs := by
    intro pairs
    induction pairs with
    | nil => exact fun r _ => (List.append_nil r).symm
    | cons p pairs ih =>
      intro r hr
      have hr' : ((r ++ [p] ++ pairs).map Prod.fst).Nodup := by
        rw [List.append_assoc]
        exact hr
      rw [List.foldl_cons, put_of_nodup hr, ih (r ++ [p]) hr', List.append_assoc]
      rfl
  exact all pairs [] h

/-- The values under the names of a record with distinct names are its values. -/
theorem map_get?_keys {r : Record α} (h : r.keys.Nodup) :
    r.keys.map (fun k => r.get? k) = r.values.map some := by
  induction r with
  | nil => rfl
  | cons p r ih =>
    obtain ⟨k, v⟩ := p
    obtain ⟨hk, hr⟩ := List.nodup_cons.1 h
    have hrest : (keys r).map (fun other => get? other ((k, v) :: r)) =
        (keys r).map (fun other => get? other r) := by
      apply List.map_congr_left
      intro other hm
      exact if_neg fun he : k = other => hk (he ▸ hm)
    show get? k ((k, v) :: r) :: (keys r).map (fun other => get? other ((k, v) :: r)) = _
    rw [hrest, ih hr, get?, if_pos rfl]
    rfl

end Record

end FormRehearsal
