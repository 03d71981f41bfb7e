/-
# Reading repeat counts

Every text stands for a number of repetitions. A text counts a number if it has digits of that value
after blanks and a plus sign or none; what follows the digits does not matter. It stands for as many
repetitions as it counts, if 64 bits hold that number and it is not zero. In every other case, in
particular for a number of any length that is too great, it stands for a single one. So whatever the
text, each step of a program is in the stream.

* `times_parse_of_counts`, `times_parse_of_not_counts` : what a text stands for;
* `parse_counts` : the number of repetitions of every text.
-/
import FormRehearsal.Text.Split
import FormRehearsal.Proofs.Program.Layout
import Mathlib.Algebra.Group.Nat.Defs

namespace FormRehearsal.RepeatCount

/-- A text counts `n` if, after blanks and a plus sign or none, the digits that come next have that
value. -/
def Counts (s : String) (n : Nat) : Prop :=
  ∃ blanks sign digits rest : List Char, s.toList = blanks ++ (sign ++ (digits ++ rest)) ∧
    blanks.all Text.isBlank = true ∧ (sign = [] ∨ sign = ['+']) ∧
    digits ≠ [] ∧ (∀ c ∈ digits, c.isDigit = true) ∧ (∀ c ∈ rest.head?, c.isDigit = false) ∧
    Nat.ofDigitChars 10 digits 0 = n

/-- The digits of a text that matter. -/
def leadingDigits (s : List Char) : List Char :=
  (dropPlus (Text.trimStart s)).takeWhile Char.isDigit

theorem parse_eq (s : String) :
    parse s = ofNat (Nat.ofDigitChars 10 (leadingDigits s.toList) 0) := by
  rw [← Text.numeral_eq]
  rfl

/-! ## The digits that matter -/

/-- No plus sign is dropped from a text that begins otherwise. -/
theorem dropPlus_eq_self {s : List Char} (h : s.head? ≠ some '+') : dropPlus s = s := by
  unfold dropPlus
  split
  · exact absurd rfl h
  · rfl

/-- A text is what is left of it after a plus sign or none. -/
theorem exists_eq_append_dropPlus (s : List Char) :
    ∃ sign, (sign = [] ∨ sign = ['+']) ∧ s = sign ++ dropPlus s := by
  unfold dropPlus
  split
  · exact ⟨['+'], .inr rfl, rfl⟩
  · exact ⟨[], .inl rfl, rfl⟩

/-- The digits after blanks and a sign are the ones that matter. -/
theorem leadingDigits_append {blanks sign digits rest : List Char}
    (hblanks : blanks.all Text.isBlank = true) (hsign : sign = [] ∨ sign = ['+'])
    (hne : digits ≠ []) (hdigits : ∀ c ∈ digits, c.isDigit = true)
    (hrest : ∀ c ∈ rest.head?, c.isDigit = false) :
    leadingDigits (blanks ++ (sign ++ (digits ++ rest))) = digits := by
  obtain ⟨d, r, rfl⟩ := List.exists_cons_of_ne_nil hne
  have hd : d.isDigit = true := hdigits d List.mem_cons_self
  have hnotPlus : d ≠ '+' := by
    rintro rfl
    exact absurd hd (by decide)
  have hstart : Text.trimStart (sign ++ (d :: r ++ rest)) = sign ++ (d :: r ++ rest) := by
    apply Text.trimStart_eq_self
    rcases hsign with rfl | rfl
    · rintro c ⟨⟩
      exact Text.isBlank_of_isDigit hd
    · rintro c ⟨⟩
      decide
  have hplus : dropPlus (sign ++ (d :: r ++ rest)) = d :: r ++ rest := by
    rcases hsign with rfl | rfl
    · exact dropPlus_eq_self fun h => hnotPlus (Option.some.inj h)
    · rfl
  rw [leadingDigits, Text.trimStart_blank_append hblanks, hstart, hplus,
    (Text.span_append hdigits hrest).1]

/-- After a minus sign no digits matter. -/
theorem leadingDigits_minus {blanks : List Char} (hblanks : blanks.all Text.isBlank = true)
    (rest : List Char) : leadingDigits (blanks ++ '-' :: rest) = [] := by
  rw [leadingDigits, Text.trimStart_blank_append hblanks]
  rfl

/-- A text counts the value of the digits that matter, if there are any. -/
theorem counts_of_leadingDigits {s : String} (h : leadingDigits s.toList ≠ []) :
    Counts s (Nat.ofDigitChars 10 (leadingDigits s.toList) 0) := by
  obtain ⟨sign, hsign, hs⟩ := exists_eq_append_dropPlus (Text.trimStart s.toList)
  refine ⟨s.toList.takeWhile Text.isBlank, sign, leadingDigits s.toList,
    (dropPlus (Text.trimStart s.toList)).dropWhile Char.isDigit, ?_, List.all_takeWhile, hsign, h,
    ?_, ?_, rfl⟩
  · calc s.toList
        = s.toList.takeWhile Text.isBlank ++ Text.trimStart s.toList :=
          List.takeWhile_append_dropWhile.symm
      _ = s.toList.takeWhile Text.isBlank ++ (sign ++ dropPlus (Text.trimStart s.toList)) := by
          rw [← hs]
      _ = _ := by rw [leadingDigits, List.takeWhile_append_dropWhile]
  · exact List.all_eq_true.1 List.all_takeWhile
  · intro c hc
    have hnot := List.head?_dropWhile_not Char.isDigit (dropPlus (Text.trimStart s.toList))
    rw [hc] at hnot
    exact hnot

/-! ## What a text stands for -/

/-- A number that is zero or too great for 64 bits means once. -/
theorem ofNat_of_not {n : Nat} (h : ¬ (1 ≤ n ∧ n < 2 ^ 64)) : ofNat n = once :=
  dif_neg h

/-- A text stands for the number that it counts, if 64 bits hold it. -/
theorem times_parse_of_counts {s : String} {n : Nat} (h : Counts s n) :
    (parse s).times = if 1 ≤ n ∧ n < 2 ^ 64 then n else 1 := by
  obtain ⟨blanks, sign, digits, rest, hs, hblanks, hsign, hne, hdigits, hrest, rfl⟩ := h
  rw [parse_eq, hs, leadingDigits_append hblanks hsign hne hdigits hrest]
  split
  · rename_i hrange
    exact times_ofNat hrange.1 hrange.2
  · rename_i hrange
    rw [ofNat_of_not hrange, once]

/-- A text without digits that matter stands for a single time. -/
theorem times_parse_of_nil {s : String} (h : leadingDigits s.toList = []) :
    (parse s).times = 1 := by
  rw [parse_eq, h]
  rfl

/-- So does a text that counts nothing. -/
theorem times_parse_of_not_counts {s : String} (h : ∀ n, ¬ Counts s n) : (parse s).times = 1 :=
  times_parse_of_nil (Decidable.byContradiction fun hne => h _ (counts_of_leadingDigits hne))

/-- How the number of repetitions is found in a text. -/
structure FoundIn (s : String) : Prop where
  counted : ∀ n, Counts s n → (parse s).times = if 1 ≤ n ∧ n < 2 ^ 64 then n else 1
  uncounted : (∀ n, ¬ Counts s n) → (parse s).times = 1
  minus : ∀ blanks rest : List Char, blanks.all Text.isBlank = true →
    s.toList = blanks ++ '-' :: rest → (∀ n, ¬ Counts s n) ∧ (parse s).times = 1
  range : 1 ≤ (parse s).times ∧ (parse s).times ≤ 2 ^ 64 - 1
  expanded : ∀ program rows, Program.expand program rows (parse s) = [] ↔ program = []

/-- **Repeat counts.** A text that counts a number above zero that 64 bits hold stands for as many
repetitions, and every other text for one, as for instance one that has a minus sign after blanks.
So there is at least one repetition, and no program but the empty one has an empty stream. -/
theorem parse_counts (s : String) : FoundIn s where
  counted _ h := times_parse_of_counts h
  uncounted := times_parse_of_not_counts
  minus blanks rest hblanks hs := by
    have hnil : leadingDigits s.toList = [] := by rw [hs, leadingDigits_minus hblanks]
    refine ⟨?_, times_parse_of_nil hnil⟩
    rintro n ⟨blanks', sign, digits, rest', hs', hblanks', hsign, hne, hdigits, hrest, -⟩
    rw [hs', leadingDigits_append hblanks' hsign hne hdigits hrest] at hnil
    exact hne hnil
  range := ⟨(parse s).pos, Nat.le_sub_one_of_lt (parse s).lt⟩
  expanded program rows := Program.expand_eq_nil_iff program rows (parse s)

/-- Zeros at the start and a tail of letters do not matter. -/
example : (parse " \t+007 loops").times = 7 := by decide

/-- 2^64 is too great. -/
example : (parse "18446744073709551616").times = 1 := by decide

end FormRehearsal.RepeatCount
