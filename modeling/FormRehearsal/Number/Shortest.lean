/-
# The fewest digits that read back

A finite double is the nearest one to every decimal numeral of an interval around it; the interval
holds its ends if the significand is even. `Binary64.shortest` takes the fewest digits with which a
numeral lies in that interval, of two such numerals the nearer one, and of two equally near ones the
even one. All comparisons are exact.
-/
import FormRehearsal.Number.Binary64

namespace FormRehearsal

/-- A numeral `digits * 10 ^ exponent`. -/
structure Numeral where
  digits : Nat
  exponent : Int
  deriving DecidableEq, Repr

namespace Numeral

/-- The same numeral without zeros at the end of its digits. -/
def strip (n : Numeral) : Numeral :=
  if n.digits = 0 ∨ n.digits % 10 ≠ 0 then n
  else strip ⟨n.digits / 10, n.exponent + 1⟩
termination_by n.digits
decreasing_by
  omega

end Numeral

namespace Binary64

/-- `2 ^ q` as a fraction. -/
def twoPow (q : Int) : Nat × Nat :=
  if 0 ≤ q then (Nat.pow 2 q.toNat, 1) else (1, Nat.pow 2 (-q).toNat)

/-- `10 ^ p` as a fraction. -/
def tenPow (p : Int) : Nat × Nat :=
  if 0 ≤ p then (Nat.pow 10 p.toNat, 1) else (1, Nat.pow 10 (-p).toNat)

/-- The interval of a double in quarters of its last place: `4 m - below` to `4 m + 2`. Below a
power of two the places are half as wide. -/
def below (m : Nat) (q : Int) : Nat := if m = normal ∧ minExponent < q then 1 else 2

/-- Whether `digits * 10 ^ p` reads back as `m * 2 ^ q`. -/
def readsBack (m : Nat) (q : Int) (digits : Nat) (p : Int) : Bool :=
  let (a, b) := twoPow (q - 2)
  let (c, d) := tenPow p
  let x := digits * c * b
  let low := (4 * m - below m q) * a * d
  let high := (4 * m + 2) * a * d
  if m % 2 = 0 then low ≤ x && x ≤ high else low < x && x < high

/-- `m * 2 ^ q / 10 ^ p` as a fraction. -/
def inUnits (m : Nat) (q p : Int) : Nat × Nat :=
  let (a, b) := twoPow q
  let (c, d) := tenPow p
  (m * a * d, b * c)

/-- The exponent `e` with `10 ^ e ≤ m * 2 ^ q < 10 ^ (e + 1)`. -/
def decimalExponent (m : Nat) (q : Int) : Int :=
  let e := ((m.log2 : Int) + q) * 30103 / 100000
  let atLeast (p : Int) : Bool := let (x, y) := inUnits m q p; y ≤ x
  if atLeast (e + 1) then e + 1 else if atLeast e then e else e - 1

/-- The numeral in units of `10 ^ p` that reads back as `m * 2 ^ q`: of the two neighbours the
nearer one that does, in a tie the even one. -/
def onGrid? (m : Nat) (q p : Int) : Option Numeral :=
  let (x, y) := inUnits m q p
  let down := x / y
  let up := down + 1
  let rest := x % y
  let upFirst := y < 2 * rest || (2 * rest == y && down % 2 == 1)
  let (first, second) := if upFirst then (up, down) else (down, up)
  if readsBack m q first p then some ⟨first, p⟩
  else if readsBack m q second p then some ⟨second, p⟩
  else none

/-- The most digits that a double needs. -/
def maxDigits : Nat := 17

/-- The numeral with the fewest digits that reads back as `m * 2 ^ q`, for `m` above zero. -/
def shortest (m : Nat) (q : Int) : Numeral :=
  let e := decimalExponent m q
  match (List.range maxDigits).findSome? fun (k : Nat) => onGrid? m q (e - k) with
  | some n => n.strip
  | none => ⟨m, 0⟩

end Binary64

end FormRehearsal
