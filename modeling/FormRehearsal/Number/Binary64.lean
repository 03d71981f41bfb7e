/-
# Doubles as exact numbers

A double stands for an exact binary fraction, an infinity or no number at all. Here its 64 bits are
taken apart into that meaning, exact quotients are rounded to the nearest double, and a double is
rounded to a whole number of 64 bits:

* `Binary64.nearest` : a quotient of naturals, a tie going to the even significand;
* `Binary64.ofDecimal` : a decimal numeral with an exponent;
* `Binary64.toWord` : the nearest whole number from 0 to 2^64 - 1, a half going up.
-/
import FormRehearsal.Text.Numeral

namespace FormRehearsal

/-- What a double stands for; `finite s m q` is `m * 2 ^ q`, negated if `s`. -/
inductive Binary64 where
  | nan
  | infinite (negative : Bool)
  | finite (negative : Bool) (significand : Nat) (exponent : Int)
  deriving DecidableEq, Repr, Inhabited

namespace Binary64

/-! ## The 64 bits -/

/-- The lowest exponent of a double. -/
def minExponent : Int := -1074

/-- The highest exponent of a double. -/
def maxExponent : Int := 971

/-- Significands from here on, from 2^52, are those of normal doubles. -/
def normal : Nat := 4503599627370496

/-- The meaning of 64 bits: a sign, 11 bits of exponent and 52 of fraction. -/
def ofBits (bits : UInt64) : Binary64 :=
  let n := bits.toNat
  let negative := decide (Text.halfWord ≤ n)
  let exponent : Nat := n / normal % 2048
  let fraction := n % normal
  if exponent = 2047 then
    if fraction = 0 then infinite negative else nan
  else if exponent = 0 then finite negative fraction minExponent
  else finite negative (fraction + normal) ((exponent : Int) - 1075)

/-- The 64 bits of a double. -/
def toBits : Binary64 → UInt64
  | nan => 0x7FF8000000000000
  | infinite negative => UInt64.ofNat ((if negative then Text.halfWord else 0) + 2047 * normal)
  | finite negative m q =>
    let sign := if negative then Text.halfWord else 0
    if m < normal then UInt64.ofNat (sign + m)
    else UInt64.ofNat (sign + (q + 1075).toNat * normal + (m - normal))

/-- The meaning of a machine double. -/
def ofFloat (x : Float) : Binary64 := ofBits x.toBits

/-- The machine double of this meaning. -/
def toFloat (x : Binary64) : Float := Float.ofBits x.toBits

/-! ## Rounding to the nearest double -/

/-- `num / den` rounded to the nearest natural, a tie to the even one. -/
def roundEven (num den : Nat) : Nat :=
  let q := num / den
  let r := num % den
  if 2 * r < den then q
  else if den < 2 * r then q + 1
  else if q % 2 = 0 then q else q + 1

/-- Whether `2 ^ e ≤ num / den`. -/
def twoPowLe (e : Int) (num den : Nat) : Bool :=
  if 0 ≤ e then den * Nat.pow 2 e.toNat ≤ num else den ≤ num * Nat.pow 2 (-e).toNat

/-- The exponent `e` with `2 ^ e ≤ num / den < 2 ^ (e + 1)`. -/
def log2Quotient (num den : Nat) : Int :=
  let e : Int := num.log2 - den.log2
  if twoPowLe e num den then e else e - 1

/-- The double nearest to `num / den`, a tie to the even significand; beyond the greatest double it
is an infinity. -/
def nearest (negative : Bool) (num den : Nat) : Binary64 :=
  if num = 0 then finite negative 0 minExponent
  else
    let q := max (log2Quotient num den - 52) minExponent
    let m := if 0 ≤ q then roundEven num (den * Nat.pow 2 q.toNat)
      else roundEven (num * Nat.pow 2 (-q).toNat) den
    let (m, q) := if m = 2 * normal then (normal, q + 1) else (m, q)
    if maxExponent < q then infinite negative else finite negative m q

/-- The double nearest to a whole number. -/
def ofInt (n : Int) : Binary64 := nearest (decide (n < 0)) n.natAbs 1

/-- A decimal numeral this many places above the point is infinite. -/
def decimalCeiling : Int := 310

/-- A decimal numeral this many places below the point is zero. -/
def decimalFloor : Int := -330

/-- The double nearest to `m * 10 ^ e`. -/
def ofDecimal (negative : Bool) (m : Nat) (e : Int) : Binary64 :=
  let places : Int := e + (Text.digitsOf m).length
  if m = 0 then nearest negative 0 1
  else if decimalCeiling < places then infinite negative
  else if places < decimalFloor then nearest negative 0 1
  else if 0 ≤ e then nearest negative (m * Nat.pow 10 e.toNat) 1
  else nearest negative m (Nat.pow 10 (-e).toNat)

/-! ## Whole numbers from doubles -/

/-- `m * 2 ^ q` rounded to the nearest natural, a half going up. -/
def roundHalfUp (m : Nat) (q : Int) : Nat :=
  if 0 ≤ q then m * Nat.pow 2 q.toNat
  else (m + Nat.pow 2 ((-q).toNat - 1)) / Nat.pow 2 (-q).toNat

/-- The nearest whole number from 0 to 2^64 - 1, a half going up; none for what is not finite. -/
def toWord? : Binary64 → Option Nat
  | finite true _ _ => some 0
  | finite false m q => some (min (roundHalfUp m q) (Text.wordLimit - 1))
  | _ => none

end Binary64

end FormRehearsal
