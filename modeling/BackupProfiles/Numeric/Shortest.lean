import BackupProfiles.Numeric.Binary64

/-!
# Shortest decimals

A double is written with the fewest digits that read back as the same double, and of those with the
digits nearest to it. The reals that read back as `m * 2 ^ e` lie between the midpoints to its two
neighbours, the midpoints included when `m` is even. On the grid of the multiples of `10 ^ k` only
the two neighbours of the number matter: if any point of the grid lies in the interval, one of them
does. `shortest` walks down from the coarsest grid and takes the first that has one.
-/

namespace BackupProfiles

/-- What becomes of a number half way between two candidates. -/
inductive Tie where
  | upward
  | toEven
  deriving DecidableEq, Repr

/-- The number `digits * 10 ^ exponent`. -/
structure Decimal where
  digits : Nat
  exponent : Int
  deriving DecidableEq, Repr, Inhabited

namespace Decimal

/-- The same number without trailing zeros in its digits. -/
def stripped (digits : Nat) (exponent : Int) : Decimal :=
  if h : digits ≠ 0 ∧ digits % 10 = 0 then stripped (digits / 10) (exponent + 1)
  else ⟨digits, exponent⟩
termination_by digits
decreasing_by exact Nat.div_lt_self (Nat.pos_of_ne_zero h.1) (by decide)

/-- The point of the multiples of `10 ^ k` that `m * 2 ^ e` is written as, if one reads back. -/
def onGrid (tie : Tie) (m : Nat) (e k : Int) : Option Nat :=
  let a := Nat.pow 10 k.toNat * Nat.pow 2 (2 - e).toNat
  let b := Nat.pow 2 (e - 2).toNat * Nat.pow 10 (-k).toNat
  let value := 4 * m * b
  let below := if m == Binary64.normalBound && e > Binary64.leastExponent then 1 else 2
  let low := (4 * m - below) * b
  let high := (4 * m + 2) * b
  let within := fun x => if m % 2 == 0 then low ≤ x && x ≤ high else low < x && x < high
  let d := value / a
  match within (d * a), within ((d + 1) * a) with
  | true, true =>
    if 2 * value < (2 * d + 1) * a then some d
    else if (2 * d + 1) * a < 2 * value then some (d + 1)
    else if tie == .toEven && d % 2 == 0 then some d else some (d + 1)
  | true, false => some d
  | false, true => some (d + 1)
  | false, false => none

/-- The first grid with a point that reads back, among `count` grids from `10 ^ k` down. -/
def firstOnGrid (tie : Tie) (m : Nat) (e : Int) : Nat → Int → Option Decimal
  | 0, _ => none
  | count + 1, k =>
    match onGrid tie m e k with
    | some d => some (stripped d k)
    | none => firstOnGrid tie m e count (k - 1)

/-- The power of ten of the leading digit of a positive quotient. -/
def magnitude (num den : Nat) : Int :=
  let size := fun n => (Text.natDigits n).length
  if den ≤ num then (size (num / den) : Int) - 1
  else
    let j := size den - size num
    if den ≤ num * Nat.pow 10 j then -j else -(j + 1)

end Decimal

/-- The shortest decimal of `m * 2 ^ e` for a positive `m`; seventeen digits always suffice. -/
def shortest (tie : Tie) (m : Nat) (e : Int) : Decimal :=
  let (num, den) := Binary64.scaled m 1 (-e)
  (Decimal.firstOnGrid tie m e 18 (Decimal.magnitude num den)).getD ⟨0, 0⟩

end BackupProfiles
