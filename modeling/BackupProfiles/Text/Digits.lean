/-!
# Digits

Natural numbers as runs of ASCII digits, and the two readers that bound them: `readNat?` takes a
whole run, `readWord64?` refuses what does not fit 64 bits.
-/

namespace BackupProfiles.Text

/-- The value of a digit in a radix up to 16. -/
def digit? (radix : Nat) (c : Char) : Option Nat :=
  let n := c.toNat
  let v :=
    if '0'.toNat ≤ n && n ≤ '9'.toNat then n - '0'.toNat
    else if 'a'.toNat ≤ n && n ≤ 'f'.toNat then n - 'a'.toNat + 10
    else if 'A'.toNat ≤ n && n ≤ 'F'.toNat then n - 'A'.toNat + 10
    else radix
  if v < radix then some v else none

def isDigitIn (radix : Nat) (c : Char) : Bool := (digit? radix c).isSome

/-- The number a run of digits stands for; other characters count as zero. -/
def valueIn (radix : Nat) (cs : List Char) : Nat :=
  cs.foldl (fun n c => n * radix + (digit? radix c).getD 0) 0

/-- A non-empty run of digits and nothing else. -/
def readNatIn? (radix : Nat) (cs : List Char) : Option Nat :=
  if !cs.isEmpty && cs.all (isDigitIn radix) then some (valueIn radix cs) else none

def readNat? (cs : List Char) : Option Nat := readNatIn? 10 cs

/-- The character of a code point, unless that is no character. -/
def charOfCode? (n : Nat) : Option Char := if n.isValidChar then some (Char.ofNat n) else none

/-- The character that a number of hexadecimal digits at the front stands for, and the rest. -/
def readCode? (count : Nat) (cs : List Char) : Option (Char × List Char) :=
  let digits := cs.take count
  if digits.length = count then
    ((readNatIn? 16 digits).bind charOfCode?).map (·, cs.drop count)
  else none

/-- What the numbers of some bits stay below. -/
def wordBound (bits : Nat) : Nat := Nat.pow 2 bits

def word64Bound : Nat := wordBound 64

/-- A run of digits, with an optional plus sign, below 2^64. -/
def readWord64? (cs : List Char) : Option Nat :=
  let digits := match cs with
    | '+' :: rest => rest
    | _ => cs
  (readNat? digits).filter (· < word64Bound)

def natDigits (n : Nat) : List Char := Nat.toDigits 10 n

def natText (n : Nat) : String := String.ofList (natDigits n)

def intText (i : Int) : String :=
  if i < 0 then "-" ++ natText i.natAbs else natText i.natAbs

/-- Decimal digits, filled with zeros on the left up to a width. -/
def paddedDigits (width n : Nat) : List Char :=
  let ds := natDigits n
  List.replicate (width - ds.length) '0' ++ ds

/-- Hexadecimal digits in lower case, filled with zeros on the left up to a width. -/
def paddedHex (width n : Nat) : List Char :=
  let ds := Nat.toDigits 16 n
  List.replicate (width - ds.length) '0' ++ ds

end BackupProfiles.Text
