/-
# Ranges of characters

A class of characters as a list of ranges of their numbers, both ends included.

* `hold_cons_of_le` : a character between the ends of the first range is held;
* `hold_of_lt` : a character below all ranges is not.
-/

namespace FormRehearsal.Text

/-- The numbers of characters from one to another. -/
abbrev CodeRange := Nat × Nat

namespace CodeRange

/-- Whether one of some ranges holds a character. -/
def hold (ranges : List CodeRange) (c : Char) : Bool :=
  ranges.any fun (first, last) => first ≤ c.toNat && c.toNat ≤ last

/-- A character between the ends of the first range is held. -/
theorem hold_cons_of_le {c : Char} {first last : Nat} (ranges : List CodeRange)
    (h : first ≤ c.toNat) (h' : c.toNat ≤ last) : hold ((first, last) :: ranges) c = true := by
  simp [hold, h, h']

/-- A character below all ranges is not held. -/
theorem hold_of_lt {ranges : List CodeRange} {c : Char} {n : Nat}
    (hn : ranges.all (fun r => n ≤ r.1) = true) (h : c.toNat < n) : hold ranges c = false := by
  simp only [List.all_eq_true, decide_eq_true_eq] at hn
  simp only [hold, List.any_eq_false, Bool.and_eq_true, decide_eq_true_eq, not_and]
  intro r hr hf
  exact absurd (Nat.lt_of_lt_of_le h (hn r hr)) (Nat.not_lt.2 hf)

end CodeRange

end FormRehearsal.Text
