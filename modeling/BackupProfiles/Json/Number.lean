import BackupProfiles.Value.Number

/-!
# Numbers in JSON

A number without point and exponent is an integer while it fits 64 bits. Any other number is read
into a significand below 2^64 and a power of ten: from the first digit that does not fit on, the
digits of that part only count as places. The significand is then scaled by powers of ten, each
step rounded, so the result can miss the nearest double by a little.
-/

namespace BackupProfiles.Json

/-- Adds digits to a significand while it stays below 2^64. Answers the significand and the digits
left over. -/
def absorb (significand : Nat) : List Char → Nat × List Char
  | [] => (significand, [])
  | c :: rest =>
    let next := significand * 10 + (Text.digit? 10 c).getD 0
    if next < Text.word64Bound then absorb next rest else (significand, c :: rest)

def powerOfTen (n : Nat) : Binary64 := Binary64.ofDecimal false 1 n

/-- The greatest power of ten that is a double. -/
def greatestPlaces : Nat := 308

/-- Divides by `10 ^ places`, at most `greatestPlaces` at a time. -/
def scaleDown (x : Binary64) (places : Nat) : Binary64 :=
  if _h : greatestPlaces < places then
    if x.isZero then x
    else scaleDown (x.div (powerOfTen greatestPlaces)) (places - greatestPlaces)
  else x.div (powerOfTen places)
termination_by places
decreasing_by exact Nat.sub_lt (Nat.zero_lt_of_lt _h) (by decide)

/-- The significand times a power of ten, unless that is too large. -/
def scale? (negative : Bool) (significand : Nat) (exponent : Int) : Option Binary64 :=
  let x := Binary64.ofNat significand
  let scaled :=
    if exponent < 0 then some (scaleDown x (-exponent).toNat)
    else if greatestPlaces < exponent then (if x.isZero then some x else none)
    else some (x.mul (powerOfTen exponent.toNat))
  (scaled.filter Binary64.isFinite).map fun x => if negative then x.neg else x

/-- The largest exponent that is computed with; a larger one means zero or too large. -/
def exponentBound : Nat := Text.wordBound 31

def withExponent? (negative : Bool) (significand : Nat) (exponent : Int) (down : Bool) (digits : Nat) :
    Option Binary64 :=
  if exponentBound ≤ digits then
    if significand != 0 && !down then none else some (Binary64.zero negative)
  else scale? negative significand (if down then exponent - digits else exponent + digits)

def isDigit (c : Char) : Bool := Text.isDigitIn 10 c

/-- An optional exponent after the digits of a number. -/
def readExponent? (negative : Bool) (significand : Nat) (exponent : Int) (cs : List Char) :
    Option (Binary64 × List Char) :=
  match cs with
  | c :: more =>
    if c == 'e' || c == 'E' then
      let (down, more) := match more with
        | '-' :: more => (true, more)
        | '+' :: more => (false, more)
        | _ => (false, more)
      let (digits, rest) := more.span isDigit
      if digits.isEmpty then none
      else (withExponent? negative significand exponent down (Text.valueIn 10 digits)).map (·, rest)
    else (scale? negative significand exponent).map (·, cs)
  | [] => (scale? negative significand exponent).map (·, cs)

def integer (negative : Bool) (n : Nat) : Number :=
  if !negative then .int n
  else if n == 0 || Text.wordBound 63 < n then .float (Binary64.ofNat n).neg
  else .int (-(n : Int))

/-- A number at the front of a text, its minus sign already taken. -/
def readMagnitude? (negative : Bool) (cs : List Char) : Option (Number × List Char) :=
  let (whole, rest) := cs.span isDigit
  match whole with
  | [] => none
  | '0' :: _ :: _ => none
  | _ =>
    let (significand, dropped) := absorb 0 whole
    match rest with
    | '.' :: more =>
      let (places, rest) := more.span isDigit
      let (significand, unread) := absorb significand places
      if places.isEmpty then none
      else
        let read : Int := places.length - unread.length
        (readExponent? negative significand (dropped.length - read) rest).map fun (x, rest) =>
          (.float x, rest)
    | c :: _ =>
      if dropped.isEmpty && c != 'e' && c != 'E' then some (integer negative significand, rest)
      else (readExponent? negative significand dropped.length rest).map fun (x, rest) =>
        (.float x, rest)
    | [] =>
      if dropped.isEmpty then some (integer negative significand, [])
      else (scale? negative significand dropped.length).map fun x => (.float x, [])

end BackupProfiles.Json
