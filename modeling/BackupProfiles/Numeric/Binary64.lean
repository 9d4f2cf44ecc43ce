import BackupProfiles.Text.Digits

/-!
# Double precision numbers

A double is kept as its sign, significand and binary exponent, so that arithmetic is arithmetic on
naturals: every operation computes the exact quotient and rounds it once, to the nearest double,
ties to the even significand. `ofRatio` is that rounding. Zero has the least exponent and keeps its
sign; there is one value for what is not a number.
-/

namespace BackupProfiles

inductive Binary64 where
  | nan
  | infinite (negative : Bool)
  /-- The number `± significand * 2 ^ exponent`. -/
  | finite (negative : Bool) (significand : Nat) (exponent : Int)
  deriving DecidableEq, Repr, Inhabited

namespace Binary64

def leastExponent : Int := -1074

def greatestExponent : Int := 971

/-- The significands of normal numbers lie between this bound and its double. -/
def normalBound : Nat := Nat.pow 2 52

def zero (negative : Bool) : Binary64 := finite negative 0 leastExponent

/-- The nearest natural to a quotient, a half going to the even neighbour. -/
def roundHalfEven (num den : Nat) : Nat :=
  let q := num / den
  let r := num % den
  if 2 * r < den then q
  else if den < 2 * r then q + 1
  else if q % 2 == 0 then q else q + 1

/-- A quotient divided by a power of two, as a quotient. -/
def scaled (num den : Nat) (e : Int) : Nat × Nat :=
  if e < 0 then (num <<< (-e).toNat, den) else (num, den <<< e.toNat)

/-- The exponent at which the significand of a quotient has 53 bits, or the least exponent. -/
def exponentFor (num den : Nat) : Int :=
  let e : Int := (num.log2 : Int) - den.log2 - 52
  let (n, d) := scaled num den e
  max leastExponent (if n / d < normalBound then e - 1 else e)

/-- The double nearest to a quotient with a positive divisor. -/
def ofRatio (negative : Bool) (num den : Nat) : Binary64 :=
  if num == 0 then zero negative
  else
    let e := exponentFor num den
    let (n, d) := scaled num den e
    let q := roundHalfEven n d
    let (m, e) := if q == 2 * normalBound then (normalBound, e + 1) else (q, e)
    if e > greatestExponent then infinite negative else finite negative m e

def ofNat (n : Nat) : Binary64 := ofRatio false n 1

def ofInt (i : Int) : Binary64 := ofRatio (i < 0) i.natAbs 1

/-- The double nearest to `digits * 10 ^ exponent`. Beyond 400 places from the point the answer is
known without the power of ten. -/
def ofDecimal (negative : Bool) (digits : Nat) (exponent : Int) : Binary64 :=
  let size : Int := exponent + (Text.natDigits digits).length
  if digits == 0 || size < -400 then zero negative
  else if size > 400 then infinite negative
  else if exponent < 0 then ofRatio negative digits (Nat.pow 10 (-exponent).toNat)
  else ofRatio negative (digits * Nat.pow 10 exponent.toNat) 1

def isNaN : Binary64 → Bool
  | nan => true
  | _ => false

def isFinite : Binary64 → Bool
  | finite _ _ _ => true
  | _ => false

def isZero : Binary64 → Bool
  | finite _ m _ => m == 0
  | _ => false

/-- Below zero; a zero is not, whatever its sign. -/
def isBelowZero : Binary64 → Bool
  | nan => false
  | infinite s => s
  | finite s m _ => s && m != 0

def neg : Binary64 → Binary64
  | nan => nan
  | infinite s => infinite !s
  | finite s m e => finite (!s) m e

/-- Equality of numbers: the two zeros are equal, and what is not a number equals nothing. -/
def sameNumber : Binary64 → Binary64 → Bool
  | nan, _ => false
  | _, nan => false
  | a, b => a == b || (a.isZero && b.isZero)

/-- The sum, zero being positive unless both summands are negative zeros. -/
def add : Binary64 → Binary64 → Binary64
  | nan, _ => nan
  | _, nan => nan
  | infinite s, infinite t => if s == t then infinite s else nan
  | infinite s, _ => infinite s
  | _, infinite t => infinite t
  | finite s m e, finite t n f =>
    let g := min e f
    let a : Int := (m <<< (e - g).toNat : Nat)
    let b : Int := (n <<< (f - g).toNat : Nat)
    let sum := (if s then -a else a) + (if t then -b else b)
    let negative := if sum == 0 then s && t && m == 0 else sum < 0
    let (num, den) := scaled sum.natAbs 1 (-g)
    ofRatio negative num den

def mul : Binary64 → Binary64 → Binary64
  | nan, _ => nan
  | _, nan => nan
  | infinite s, b => if b.isZero then nan else infinite (s != b.isBelowZero)
  | a, infinite t => if a.isZero then nan else infinite (t != a.isBelowZero)
  | finite s m e, finite t n f =>
    let (num, den) := scaled (m * n) 1 (-(e + f))
    ofRatio (s != t) num den

def div : Binary64 → Binary64 → Binary64
  | nan, _ => nan
  | _, nan => nan
  | infinite _, infinite _ => nan
  | infinite s, finite t _ _ => infinite (s != t)
  | finite s _ _, infinite t => zero (s != t)
  | finite s m e, finite t n f =>
    if n == 0 then (if m == 0 then nan else infinite (s != t))
    else
      let (num, den) := scaled m n (f - e)
      ofRatio (s != t) num den

end Binary64

end BackupProfiles
