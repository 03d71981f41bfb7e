/-
# Whole numbers as doubles

A whole number of 64 bits goes to the nearest double. Up to 2^53 that is the number itself. From
there on the doubles are the multiples of a power of two, which doubles with the number, and of
these the nearest one is taken. A greater number never goes to a smaller one, and a decimal numeral
goes to the same double as its value, however many zeros it begins with.

* `nearestWhole_mono` : rounding keeps the order;
* `nearestWhole_of_le` : numbers up to 2^53 are doubles;
* `toWord?_nearest` : the whole number that comes back from the double;
* `read?_numeral` : the digits of a whole number are read as the double nearest to it.
-/
import FormRehearsal.Number.Reading
import FormRehearsal.Text.Split
import Mathlib.Data.Nat.Digits.Defs
import Mathlib.Tactic.Ring

namespace FormRehearsal.Binary64

/-! ## Rounding a quotient -/

section Quotients

variable {num num' den : Nat}

/-- A rounded quotient is at most half a unit away. -/
theorem roundEven_close (num : Nat) (h : 0 < den) :
    2 * (roundEven num den * den) ≤ 2 * num + den ∧
      2 * num ≤ 2 * (roundEven num den * den) + den := by
  have hsplit : num / den * den + num % den = num := Nat.div_add_mod' num den
  have hrest : num % den < den := Nat.mod_lt num h
  have hnext : (num / den + 1) * den = num / den * den + den := Nat.add_one_mul _ _
  unfold roundEven
  dsimp only
  split
  · omega
  · split
    · omega
    · split <;> omega

/-- A greater quotient is not rounded to a smaller number: two neighbours are a whole unit apart. -/
theorem roundEven_mono (h : 0 < den) (hle : num ≤ num') :
    roundEven num den ≤ roundEven num' den := by
  rcases Nat.eq_or_lt_of_le hle with rfl | hlt
  · exact Nat.le_refl _
  · by_contra hgt
    have hstep : (roundEven num' den + 1) * den ≤ roundEven num den * den :=
      Nat.mul_le_mul_right den (Nat.lt_of_not_le hgt)
    rw [Nat.add_one_mul] at hstep
    have hupper := (roundEven_close num h).1
    have hlower := (roundEven_close num' h).2
    omega

/-- A quotient without a rest stays as it is. -/
theorem roundEven_mul (h : 0 < den) (n : Nat) : roundEven (n * den) den = n := by
  rw [roundEven, Nat.mul_mod_left, Nat.mul_div_cancel n h]
  exact if_pos (by omega)

end Quotients

/-! ## Whole numbers that are doubles -/

/-- The distance between two doubles at a whole number: its last place, if 53 binary places are
kept. -/
def spacing (n : Nat) : Nat := 2 ^ (n.log2 - 52)

/-- The whole number to which another one is rounded. -/
def nearestWhole (n : Nat) : Nat := roundEven n (spacing n) * spacing n

theorem spacing_pos (n : Nat) : 0 < spacing n := Nat.two_pow_pos _

/-- The powers of two from the distance on are multiples of it. -/
theorem exists_mul_spacing {n e : Nat} (h : n.log2 ≤ e) : ∃ k, 2 ^ e = k * spacing n :=
  ⟨2 ^ (e - (n.log2 - 52)), by rw [spacing, ← Nat.pow_add]; congr 1; omega⟩

/-- A power of two below a number is below what the number is rounded to. -/
theorem le_nearestWhole {n : Nat} (h : n ≠ 0) : 2 ^ n.log2 ≤ nearestWhole n := by
  obtain ⟨k, hk⟩ := exists_mul_spacing (Nat.le_refl n.log2)
  have hround : k ≤ roundEven n (spacing n) := by
    rw [← roundEven_mul (spacing_pos n) k, ← hk]
    exact roundEven_mono (spacing_pos n) (Nat.log2_self_le h)
  rw [hk]
  exact Nat.mul_le_mul_right _ hround

/-- A power of two above a number is above what the number is rounded to. -/
theorem nearestWhole_le (n : Nat) : nearestWhole n ≤ 2 ^ (n.log2 + 1) := by
  obtain ⟨k, hk⟩ := exists_mul_spacing (Nat.le_succ n.log2)
  have hround : roundEven n (spacing n) ≤ k := by
    rw [← roundEven_mul (spacing_pos n) k, ← hk]
    exact roundEven_mono (spacing_pos n) (Nat.le_of_lt Nat.lt_log2_self)
  rw [hk]
  exact Nat.mul_le_mul_right _ hround

/-- A greater number is not rounded to a smaller one. -/
theorem nearestWhole_mono {a b : Nat} (h : a ≤ b) : nearestWhole a ≤ nearestWhole b := by
  rcases Nat.eq_zero_or_pos a with rfl | ha
  · rw [show nearestWhole 0 = 0 from rfl]
    exact Nat.zero_le _
  have hb : b ≠ 0 := by omega
  have hlog : a.log2 ≤ b.log2 := by
    rw [Nat.le_log2 hb]
    exact Nat.le_trans (Nat.log2_self_le (Nat.ne_of_gt ha)) h
  rcases Nat.eq_or_lt_of_le hlog with heq | hlt
  · -- the distance is the same for both
    have hspacing : spacing b = spacing a := by rw [spacing, spacing, heq]
    rw [nearestWhole, nearestWhole, hspacing]
    exact Nat.mul_le_mul_right _ (roundEven_mono (spacing_pos a) h)
  · -- a power of two stands between them
    calc nearestWhole a ≤ 2 ^ (a.log2 + 1) := nearestWhole_le a
      _ ≤ 2 ^ b.log2 := Nat.pow_le_pow_right (by decide) hlt
      _ ≤ nearestWhole b := le_nearestWhole hb

/-- The numbers up to 2^53 are doubles. -/
theorem nearestWhole_of_le {n : Nat} (h : n ≤ 2 ^ 53) : nearestWhole n = n := by
  rcases Nat.eq_or_lt_of_le h with rfl | hlt
  · rfl
  · have hone : spacing n = 1 := by
      rcases Nat.eq_zero_or_pos n with rfl | hn
      · rfl
      · have hlog : n.log2 < 53 := (Nat.log2_lt (Nat.ne_of_gt hn)).2 hlt
        rw [spacing, Nat.sub_eq_zero_of_le (by omega), Nat.pow_zero]
    rw [nearestWhole, hone, Nat.mul_one]
    simpa using roundEven_mul Nat.one_pos n

/-! ## To a double and back -/

theorem roundHalfUp_ofNat (m q : Nat) : roundHalfUp m q = m * 2 ^ q := by
  rw [roundHalfUp, if_pos (Int.natCast_nonneg q)]
  rfl

/-- A fraction that is whole stays as it is. -/
theorem roundHalfUp_mul (n : Nat) {k : Nat} (h : 0 < k) : roundHalfUp (n * 2 ^ k) (-k) = n := by
  obtain ⟨j, rfl⟩ := Nat.exists_eq_add_of_le' h
  have hneg : ¬ (0 : Int) ≤ -((j + 1 : Nat) : Int) := by omega
  have hk : (- -((j + 1 : Nat) : Int)).toNat = j + 1 := by omega
  rw [roundHalfUp, if_neg hneg, hk]
  show (n * 2 ^ (j + 1) + 2 ^ j) / 2 ^ (j + 1) = n
  have hlt : 2 ^ j < 2 ^ (j + 1) := Nat.pow_lt_pow_right (by decide) (Nat.lt_succ_self j)
  rw [Nat.mul_comm, Nat.mul_add_div (Nat.two_pow_pos _), Nat.div_eq_of_lt hlt, Nat.add_zero]

theorem log2Quotient_one {n : Nat} (h : n ≠ 0) : log2Quotient n 1 = n.log2 := by
  have hle : twoPowLe n.log2 n 1 = true := by
    rw [twoPowLe, if_pos (Int.natCast_nonneg _), Nat.one_mul]
    exact decide_eq_true (Nat.log2_self_le h)
  have hlog : ((n.log2 : Int) - (Nat.log2 1 : Nat)) = n.log2 := by
    rw [show Nat.log2 1 = 0 from rfl]
    omega
  rw [log2Quotient]
  simp only [hlog, hle, if_true]

/-- The double nearest to a whole number, from its exponent and the rounded significand. -/
theorem nearest_one (negative : Bool) {n m : Nat} {q : Int} (hn : n ≠ 0)
    (hq : (n.log2 : Int) - 52 = q) (htop : q < maxExponent)
    (hm : (if 0 ≤ q then roundEven n (2 ^ q.toNat) else roundEven (n * 2 ^ (-q).toNat) 1) = m) :
    nearest negative n 1 =
      if m = 2 * normal then finite negative normal (q + 1) else finite negative m q := by
  have hexponent : max (log2Quotient n 1 - 52) minExponent = q := by
    rw [log2Quotient_one hn, minExponent]
    omega
  have hsignificand : (if 0 ≤ q then roundEven n (1 * Nat.pow 2 q.toNat)
      else roundEven (n * Nat.pow 2 (-q).toNat) 1) = m := by
    rw [Nat.one_mul]
    exact hm
  rw [nearest, if_neg hn, hexponent]
  dsimp only
  rw [hsignificand]
  split
  · exact if_neg (by omega)
  · exact if_neg (by omega)

/-- A number below 2^52 is its double: the significand is the number, moved up to its first place.
-/
theorem exists_nearest_of_log2_lt (negative : Bool) {n : Nat} (hn : n ≠ 0) (h : n.log2 < 52) :
    ∃ m q, nearest negative n 1 = finite negative m q ∧ roundHalfUp m q = nearestWhole n := by
  obtain ⟨k, hk⟩ := Nat.exists_eq_add_of_lt h
  have hroom : n < 2 ^ (n.log2 + 1) := Nat.lt_log2_self
  have hfull : n * 2 ^ (k + 1) ≠ 2 * normal := by
    apply Nat.ne_of_lt
    calc n * 2 ^ (k + 1) < 2 ^ (n.log2 + 1) * 2 ^ (k + 1) :=
          Nat.mul_lt_mul_of_pos_right hroom (Nat.two_pow_pos _)
      _ = 2 ^ 53 := by rw [← Nat.pow_add]; congr 1; omega
      _ = 2 * normal := rfl
  have hm : (if (0 : Int) ≤ -((k + 1 : Nat) : Int) then
        roundEven n (2 ^ (-((k + 1 : Nat) : Int)).toNat)
      else roundEven (n * 2 ^ (- -((k + 1 : Nat) : Int)).toNat) 1) = n * 2 ^ (k + 1) := by
    rw [if_neg (by omega), Int.neg_neg, Int.toNat_natCast]
    simpa using roundEven_mul Nat.one_pos (n * 2 ^ (k + 1))
  refine ⟨n * 2 ^ (k + 1), -((k + 1 : Nat) : Int), ?_, ?_⟩
  · rw [nearest_one negative hn (by omega) (by rw [maxExponent]; omega) hm, if_neg hfull]
  · rw [roundHalfUp_mul n (Nat.succ_pos k), nearestWhole_of_le]
    exact Nat.le_trans (Nat.le_of_lt hroom) (Nat.pow_le_pow_right (by decide) (by omega))

/-- From 2^52 on the significand of the double counts the distances between doubles. -/
theorem exists_nearest_of_le_log2 (negative : Bool) {n : Nat} (h : n < Text.wordLimit)
    (hlarge : 52 ≤ n.log2) :
    ∃ m q, nearest negative n 1 = finite negative m q ∧ roundHalfUp m q = nearestWhole n := by
  have hn : n ≠ 0 := by
    rintro rfl
    exact absurd hlarge (by decide)
  have hlog : n.log2 < 64 := (Nat.log2_lt hn).2 h
  obtain ⟨k, hk⟩ := Nat.exists_eq_add_of_le hlarge
  have hspacing : spacing n = 2 ^ k := by rw [spacing, hk, Nat.add_sub_cancel_left]
  have hm : (if (0 : Int) ≤ (k : Int) then roundEven n (2 ^ (k : Int).toNat)
      else roundEven (n * 2 ^ (-(k : Int)).toNat) 1) = roundEven n (spacing n) := by
    rw [if_pos (Int.natCast_nonneg k), Int.toNat_natCast, hspacing]
  have hnearest := nearest_one negative hn (by omega) (by rw [maxExponent]; omega) hm
  by_cases hfull : roundEven n (spacing n) = 2 * normal
  · -- a full significand moves on to the next power of two
    refine ⟨normal, ((k + 1 : Nat) : Int), hnearest.trans (if_pos hfull), ?_⟩
    rw [roundHalfUp_ofNat, nearestWhole, hfull, hspacing, Nat.pow_succ]
    ring
  · refine ⟨roundEven n (spacing n), k, hnearest.trans (if_neg hfull), ?_⟩
    rw [roundHalfUp_ofNat, nearestWhole, hspacing]

/-- The double nearest to a whole number stands for the number to which it is rounded. -/
theorem exists_nearest (negative : Bool) {n : Nat} (h : n < Text.wordLimit) :
    ∃ m q, nearest negative n 1 = finite negative m q ∧ roundHalfUp m q = nearestWhole n := by
  rcases Nat.eq_zero_or_pos n with rfl | hpos
  · refine ⟨0, minExponent, rfl, ?_⟩
    have hzero := roundHalfUp_mul 0 (k := 1074) (by decide)
    rwa [Nat.zero_mul] at hzero
  · rcases Nat.lt_or_ge n.log2 52 with hsmall | hlarge
    · exact exists_nearest_of_log2_lt negative (Nat.ne_of_gt hpos) hsmall
    · exact exists_nearest_of_le_log2 negative h hlarge

/-- What comes back from a double has no more than 64 bits. -/
theorem toWord?_lt {x : Binary64} {w : Nat} (h : toWord? x = some w) : w < Text.wordLimit := by
  unfold toWord? at h
  split at h
  · cases h
    decide
  · cases h
    exact Nat.lt_of_le_of_lt (Nat.min_le_right _ _) (by decide)
  · cases h

/-- What comes back from the double nearest to a whole number: below zero nothing, and otherwise the
number to which it is rounded, if that fits into 64 bits. -/
theorem toWord?_nearest (negative : Bool) {n : Nat} (h : n < Text.wordLimit) :
    toWord? (nearest negative n 1) =
      some (if negative then 0 else min (nearestWhole n) (Text.wordLimit - 1)) := by
  obtain ⟨m, q, hnearest, hround⟩ := exists_nearest negative h
  rw [hnearest]
  cases negative
  · rw [toWord?, hround]
    rfl
  · rfl

/-! ## Whole numbers that are written -/

/-- A decimal numeral without an exponent goes to the double nearest to its value. -/
theorem ofDecimal_zero (negative : Bool) {m : Nat} (h : m < Text.wordLimit) :
    ofDecimal negative m 0 = nearest negative m 1 := by
  have hlength : (Text.digitsOf m).length ≤ 20 :=
    Nat.toDigits_length 10 m 20 (by decide) (Nat.lt_trans h (by decide))
  unfold ofDecimal
  dsimp only
  split
  · rename_i hm
    rw [hm]
  · rw [if_neg (by rw [decimalCeiling]; omega), if_neg (by rw [decimalFloor]; omega),
      if_pos (Int.le_refl 0)]
    show nearest negative (m * 1) 1 = _
    rw [Nat.mul_one]

/-- The digits of a whole number, behind a sign or not, are read as the double nearest to it. -/
theorem read?_numeral {s digits : List Char} {negative : Bool} (hs : signed s = (negative, digits))
    (hne : digits ≠ []) (hdigits : ∀ c ∈ digits, c.isDigit = true)
    (h : Text.numeral digits < Text.wordLimit) :
    read? s = some (nearest negative (Text.numeral digits) 1) := by
  have hparts : digitParts digits = (digits, [], []) := by
    obtain ⟨hwhole, hrest⟩ := Text.span_append (t := []) hdigits (fun c hc => by cases hc)
    rw [List.append_nil] at hwhole hrest
    rw [digitParts, hwhole, hrest]
  have hsome : (digits.isEmpty && ([] : List Char).isEmpty) = false := by
    cases digits with
    | nil => exact absurd rfl hne
    | cons c r => rfl
  rw [read?, hs]
  simp only [hparts, hsome, Bool.false_eq_true, if_false, exponent?, Option.map_some,
    List.append_nil, List.length_nil]
  exact congrArg some (ofDecimal_zero negative h)

end FormRehearsal.Binary64
