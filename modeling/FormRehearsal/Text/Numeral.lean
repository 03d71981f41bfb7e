/-
# Decimal numerals

The value of a run of digits, the reading of a numeral that must fit into 64 bits, and the writing
of hexadecimal words.
-/

namespace FormRehearsal.Text

/-- The number of different words of 64 bits, 2^64. -/
def wordLimit : Nat := 18446744073709551616

/-- Half the number of different words of 64 bits, 2^63. -/
def halfWord : Nat := 9223372036854775808

/-- The value of one digit. -/
def digitValue (c : Char) : Nat := c.toNat - '0'.toNat

/-- The value of a run of digits that follow others of value `n`. -/
def numeralFrom (n : Nat) (digits : List Char) : Nat :=
  digits.foldl (fun n c => 10 * n + digitValue c) n

/-- The value of a run of digits. -/
def numeral (digits : List Char) : Nat := numeralFrom 0 digits

/-- The decimal digits of a number. -/
def digitsOf (n : Nat) : List Char := Nat.toDigits 10 n

/-- The value of a non-empty run of digits, if it fits into 64 bits. -/
def word? (digits : List Char) : Option Nat :=
  if digits.isEmpty || !digits.all Char.isDigit then none
  else if numeral digits < wordLimit then some (numeral digits) else none

/-- `word?` after an optional plus sign. -/
def signedWord? : List Char → Option Nat
  | '+' :: digits => word? digits
  | digits => word? digits

/-- The digit of value `n` in base sixteen, in small letters. -/
def hexDigit (n : Nat) : Char :=
  if n < 10 then Char.ofNat ('0'.toNat + n) else Char.ofNat ('a'.toNat + (n - 10))

/-- The `width` lowest hexadecimal digits of a number. -/
def hexDigits : Nat → Nat → List Char
  | 0, _ => []
  | width + 1, n => hexDigits width (n / 16) ++ [hexDigit (n % 16)]

/-- The value of a hexadecimal digit, in small letters or capitals. -/
def hexValue? (c : Char) : Option Nat :=
  if '0' ≤ c ∧ c ≤ '9' then some (c.toNat - '0'.toNat)
  else if 'a' ≤ c ∧ c ≤ 'f' then some (c.toNat - 'a'.toNat + 10)
  else if 'A' ≤ c ∧ c ≤ 'F' then some (c.toNat - 'A'.toNat + 10)
  else none

/-! ## Facts about numerals -/

/-- The value of a run of digits is that in base ten. -/
theorem numeral_eq (digits : List Char) : numeral digits = Nat.ofDigitChars 10 digits 0 :=
  Nat.ofDigitChars_eq_foldl.symm

@[simp] theorem numeralFrom_nil (n : Nat) : numeralFrom n [] = n := rfl

@[simp] theorem numeralFrom_cons (n : Nat) (c : Char) (r : List Char) :
    numeralFrom n (c :: r) = numeralFrom (10 * n + digitValue c) r := by
  simp only [numeralFrom, List.foldl_cons]

/-- A numeral that is read fits into 64 bits. -/
theorem word?_lt {digits : List Char} {n : Nat} (h : word? digits = some n) : n < wordLimit := by
  by_cases hn : numeral digits < wordLimit
  · simp only [word?, hn, if_true, Option.ite_none_left_eq_some, Option.some.injEq] at h
    exact h.2 ▸ hn
  · simp [word?, hn] at h

@[simp] theorem numeral_digitsOf (n : Nat) : numeral (digitsOf n) = n :=
  Nat.ofDigitChars_ten_toDigits

/-- A number has at least one digit. -/
theorem exists_digitsOf_eq_cons (n : Nat) :
    ∃ c r, digitsOf n = c :: r ∧ c.isDigit = true ∧ ∀ d ∈ r, d.isDigit = true := by
  have hdigit : ∀ c ∈ digitsOf n, c.isDigit = true := fun c hc =>
    Nat.isDigit_of_mem_toDigits (by decide) (by decide) hc
  cases h : digitsOf n with
  | nil => exact absurd h Nat.toDigits_ne_nil
  | cons c r =>
    rw [h] at hdigit
    exact ⟨c, r, rfl, hdigit c List.mem_cons_self, fun d hd => hdigit d (List.mem_cons_of_mem c hd)⟩

/-- No zero stands at the start of a number above zero. -/
theorem head?_digitsOf {n : Nat} (h : 0 < n) : (digitsOf n).head? ≠ some '0' := by
  induction n using Nat.strongRecOn with
  | ind n ih =>
    rcases Nat.lt_or_ge n 10 with hlt | hge
    · rw [digitsOf, Nat.toDigits_of_lt_base hlt]
      simpa [Nat.digitChar_eq_zero] using Nat.ne_of_gt h
    · -- the first digit is the one without the last digit
      have hhead := ih (n / 10) (Nat.div_lt_self h (by decide)) (Nat.div_pos hge (by decide))
      obtain ⟨c, r, hdigits, -⟩ := exists_digitsOf_eq_cons (n / 10)
      rw [hdigits] at hhead
      rw [digitsOf, Nat.toDigits_of_base_le (by decide) hge, ← digitsOf, hdigits]
      exact hhead

/-- A hexadecimal digit is read as the value that it was written for. -/
theorem hexValue?_hexDigit {n : Nat} (h : n < 16) : hexValue? (hexDigit n) = some n := by
  have all : ∀ m : Fin 16, hexValue? (hexDigit m) = some m.val := by decide
  exact all ⟨n, h⟩

end FormRehearsal.Text
