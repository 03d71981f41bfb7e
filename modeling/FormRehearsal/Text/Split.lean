/-
# Cutting texts into pieces

* `splitAt p` cuts at every character of a class and keeps the empty pieces;
* `lines` cuts after every line feed and drops the carriage return before it;
* `splitFirst c` cuts at the first occurrence of a character;
* `replacePair` writes one character for every occurrence of a pair.
-/

namespace FormRehearsal.Text

/-- The pieces between the characters that satisfy `p`; there is one more piece than such
characters. -/
def splitAt (p : Char → Bool) : List Char → List (List Char)
  | [] => [[]]
  | c :: r =>
    if p c then [] :: splitAt p r
    else
      match splitAt p r with
      | [] => [[c]]
      | piece :: pieces => (c :: piece) :: pieces

/-- A line without the carriage return at its end. -/
def dropCarriageReturn (s : List Char) : List Char :=
  if s.getLast? = some '\r' then s.dropLast else s

/-- The lines of a text: each ends with a line feed, which may follow a carriage return; the last
one need not end so. -/
def lines (s : List Char) : List (List Char) :=
  let pieces := splitAt (· == '\n') s
  let whole := pieces.dropLast.map dropCarriageReturn
  match pieces.getLast? with
  | none => whole
  | some [] => whole
  | some last => whole ++ [last]

/-- The text before and after the first occurrence of `c`. -/
def splitFirst (c : Char) : List Char → Option (List Char × List Char)
  | [] => none
  | d :: r => if d = c then some ([], r) else (splitFirst c r).map fun (a, b) => (d :: a, b)

/-- Every `a` directly followed by `b`, from the left, becomes `c`. -/
def replacePair (a b c : Char) : List Char → List Char
  | [] => []
  | [d] => [d]
  | d :: e :: r => if d = a ∧ e = b then c :: replacePair a b c r else d :: replacePair a b c (e :: r)

/-- The pieces with `sep` between them. -/
def joinWith (sep : List Char) : List (List Char) → List Char
  | [] => []
  | [s] => s
  | s :: t :: r => s ++ sep ++ joinWith sep (t :: r)

/-- The text with its ASCII capitals made small. -/
def asciiLower (s : String) : String := String.ofList (s.toList.map Char.toLower)

/-! ## Facts about cutting -/

/-- There is always a first piece. -/
theorem splitAt_ne_nil (p : Char → Bool) (s : List Char) : splitAt p s ≠ [] := by
  cases s with
  | nil => simp [splitAt]
  | cons c r =>
    simp only [splitAt]
    split
    · simp
    · split <;> simp

/-- A text without a cutting character is its only piece. -/
theorem splitAt_eq_singleton {p : Char → Bool} {s : List Char} (h : ∀ c ∈ s, p c = false) :
    splitAt p s = [s] := by
  induction s with
  | nil => rfl
  | cons c r ih =>
    obtain ⟨hc, hr⟩ := List.forall_mem_cons.1 h
    simp [splitAt, hc, ih hr]

/-- The pieces on both sides of a cutting character have nothing to do with each other. -/
theorem splitAt_append_cons {p : Char → Bool} (s : List Char) {d : Char} (hd : p d = true)
    (r : List Char) : splitAt p (s ++ d :: r) = splitAt p s ++ splitAt p r := by
  induction s with
  | nil => simp [splitAt, hd]
  | cons c s ih =>
    by_cases hc : p c = true
    · simp [splitAt, hc, ih]
    · obtain ⟨piece, pieces, hs⟩ := List.exists_cons_of_ne_nil (splitAt_ne_nil p s)
      simp [splitAt, hc, ih, hs]

/-- What stands before the first cutting character is the first piece. -/
theorem splitAt_append {p : Char → Bool} {s : List Char} {d : Char} (hs : ∀ c ∈ s, p c = false)
    (hd : p d = true) (r : List Char) : splitAt p (s ++ d :: r) = s :: splitAt p r := by
  rw [splitAt_append_cons s hd, splitAt_eq_singleton hs, List.singleton_append]

/-- No piece holds a cutting character. -/
theorem not_of_mem_splitAt {p : Char → Bool} {s piece : List Char} (h : piece ∈ splitAt p s)
    {c : Char} (hc : c ∈ piece) : p c = false := by
  induction s generalizing piece with
  | nil =>
    obtain rfl := List.mem_singleton.1 h
    cases hc
  | cons d s ih =>
    simp only [splitAt] at h
    split at h
    · rcases List.mem_cons.1 h with rfl | h
      · cases hc
      · exact ih h hc
    · rename_i hd
      split at h
      · obtain rfl := List.mem_singleton.1 h
        obtain rfl := List.mem_singleton.1 hc
        simpa using hd
      · rename_i first others hfirst
        rcases List.mem_cons.1 h with rfl | h
        · rcases List.mem_cons.1 hc with rfl | hc
          · simpa using hd
          · exact ih (hfirst ▸ List.mem_cons_self) hc
        · exact ih (hfirst ▸ List.mem_cons_of_mem first h) hc

/-- The first occurrence is preceded by other characters only. -/
theorem splitFirst_append {c : Char} {a b : List Char} (h : c ∉ a) :
    splitFirst c (a ++ c :: b) = some (a, b) := by
  induction a with
  | nil => simp [splitFirst]
  | cons d r ih =>
    simp only [List.mem_cons, not_or] at h
    simp [splitFirst, Ne.symm h.1, ih h.2]

/-- What the first occurrence divides is the whole text. -/
theorem splitFirst_eq_some_iff {c : Char} {s a b : List Char} :
    splitFirst c s = some (a, b) ↔ s = a ++ c :: b ∧ c ∉ a := by
  constructor
  · intro h
    induction s generalizing a with
    | nil => cases h
    | cons d r ih =>
      rw [splitFirst] at h
      split at h
      · rename_i hd
        cases h
        exact ⟨by rw [hd, List.nil_append], List.not_mem_nil⟩
      · rename_i hd
        obtain ⟨⟨a', b'⟩, hr, hab⟩ := Option.map_eq_some_iff.1 h
        cases hab
        obtain ⟨rfl, hnot⟩ := ih hr
        exact ⟨rfl, List.not_mem_cons_of_ne_of_not_mem (Ne.symm hd) hnot⟩
  · rintro ⟨rfl, h⟩
    exact splitFirst_append h

/-- Characters of a class go as far as one follows that is not of it. -/
theorem span_append {p : Char → Bool} {s t : List Char} (hs : ∀ c ∈ s, p c = true)
    (ht : ∀ c ∈ t.head?, p c = false) :
    (s ++ t).takeWhile p = s ∧ (s ++ t).dropWhile p = t := by
  rw [List.takeWhile_append_of_pos hs, List.dropWhile_append_of_pos hs]
  cases t with
  | nil => exact ⟨List.append_nil s, rfl⟩
  | cons c r =>
    have hc : ¬ p c = true := by simpa using ht c rfl
    rw [List.takeWhile_cons_of_neg hc, List.dropWhile_cons_of_neg hc, List.append_nil]
    exact ⟨rfl, rfl⟩

end FormRehearsal.Text
