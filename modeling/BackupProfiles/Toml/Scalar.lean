import BackupProfiles.Toml.Text
import BackupProfiles.Value.Basic

/-!
# Numbers and times in TOML

Integers have 64 bits. A positive float that is too large is refused, a negative one is infinite. A
date or time is checked and kept as a map with its text under a key of its own: with an upper case
`T` and `Z`, and the fraction of a second without zeros at its end, nine digits at most.
-/

namespace BackupProfiles.Toml

/-- Digits in a radix with single underscores between them; the value of the underscores is
dropped. The first argument bounds their number. -/
def readDigits? (radix : Nat) (cs : List Char) : Read (List Char) :=
  let run := cs.takeWhile fun c => Text.isDigitIn radix c || c == '_'
  let rest := cs.dropWhile fun c => Text.isDigitIn radix c || c == '_'
  let lone := (run.zip (run.drop 1)).all fun (a, b) => !(a == '_' && b == '_')
  if run.isEmpty || run.head? == some '_' || run.getLast? == some '_' || !lone then none
  else some (run.filter (· != '_'), rest)

/-- Whether the text starts with a sign, and the rest. -/
def readSign : List Char → Bool × List Char
  | '-' :: rest => (true, rest)
  | '+' :: rest => (false, rest)
  | cs => (false, cs)

/-- Decimal digits that do not start with a zero, unless they are one. -/
def readWhole? : List Char → Read (List Char)
  | '0' :: rest => some (['0'], rest)
  | cs => readDigits? 10 cs

def word (negative : Bool) (n : Nat) : Option Value :=
  let i : Int := if negative then -n else n
  if -(Text.wordBound 63 : Int) ≤ i ∧ i < Text.wordBound 63 then some (.number (.int i)) else none

def readRadix? (radix : Nat) (cs : List Char) : Read Value :=
  (readDigits? radix cs).bind fun (ds, rest) =>
    (word false (Text.valueIn radix ds)).map (·, rest)

def readInteger? : List Char → Read Value
  | '0' :: 'x' :: rest => readRadix? 16 rest
  | '0' :: 'o' :: rest => readRadix? 8 rest
  | '0' :: 'b' :: rest => readRadix? 2 rest
  | cs =>
    let (negative, cs) := readSign cs
    (readWhole? cs).bind fun (ds, rest) =>
      (word negative (Text.valueIn 10 ds)).map (·, rest)

/-- The exponent after its letter. -/
def readExponent? (cs : List Char) : Read Int :=
  let (negative, cs) := readSign cs
  (readDigits? 10 cs).map fun (ds, rest) =>
    let n : Int := Text.valueIn 10 ds
    (if negative then -n else n, rest)

def float (negative : Bool) (digits : List Char) (exponent : Int) : Option Value :=
  let x := Binary64.ofDecimal negative (Text.valueIn 10 digits) exponent
  if x = .infinite false then none else some (.number (.float x))

def isExponentSign (c : Char) : Bool := c == 'e' || c == 'E'

/-- What follows the whole part of a float. -/
def readFraction? (negative : Bool) (whole : List Char) : List Char → Read Value
  | '.' :: rest =>
    (readDigits? 10 rest).bind fun (places, rest) =>
      let digits := whole ++ places
      match rest with
      | c :: more =>
        if isExponentSign c then
          (readExponent? more).bind fun (e, rest) =>
            (float negative digits (e - places.length)).map (·, rest)
        else (float negative digits (-places.length)).map (·, rest)
      | [] => (float negative digits (-places.length)).map (·, [])
  | c :: rest =>
    if isExponentSign c then
      (readExponent? rest).bind fun (e, rest) => (float negative whole e).map (·, rest)
    else none
  | [] => none

def readFloat? (cs : List Char) : Read Value :=
  let (negative, cs) := readSign cs
  match cs with
  | 'i' :: 'n' :: 'f' :: rest => some (.number (.float (.infinite negative)), rest)
  | 'n' :: 'a' :: 'n' :: rest => some (.number (.float .nan), rest)
  | _ => (readWhole? cs).bind fun (whole, rest) => readFraction? negative whole rest

/-- A fixed number of decimal digits between two bounds. -/
def readField? (count least greatest : Nat) (cs : List Char) :
    Option ((List Char × Nat) × List Char) :=
  let digits := cs.take count
  if digits.length = count then
    (Text.readNat? digits).bind fun n =>
      if least ≤ n && n ≤ greatest then some ((digits, n), cs.drop count) else none
  else none

def isLeapYear (y : Nat) : Bool := y % 4 == 0 && (y % 100 != 0 || y % 400 == 0)

def daysIn (year month : Nat) : Nat :=
  if month == 2 then (if isLeapYear year then 29 else 28)
  else if [4, 6, 9, 11].contains month then 30 else 31

def expect? (c : Char) : List Char → Option (List Char)
  | d :: rest => if c = d then some rest else none
  | [] => none

/-- A date, as its text. -/
def readDate? (cs : List Char) : Option (List Char × List Char) := do
  let ((y, year), rest) ← readField? 4 0 9999 cs
  let rest ← expect? '-' rest
  let ((m, month), rest) ← readField? 2 1 12 rest
  let rest ← expect? '-' rest
  let ((d, _), rest) ← readField? 2 1 (daysIn year month) rest
  return (y ++ '-' :: m ++ '-' :: d, rest)

/-- The fraction of a second, as its text. -/
def readSecondFraction : List Char → List Char × List Char
  | '.' :: rest =>
    let digits := rest.takeWhile (Text.isDigitIn 10)
    let kept := ((digits.take 9).reverse.dropWhile (· == '0')).reverse
    if digits.isEmpty then ([], '.' :: rest)
    else (if kept.isEmpty then [] else '.' :: kept, rest.dropWhile (Text.isDigitIn 10))
  | cs => ([], cs)

/-- A time of day, as its text. -/
def readTime? (cs : List Char) : Option (List Char × List Char) := do
  let ((h, _), rest) ← readField? 2 0 23 cs
  let rest ← expect? ':' rest
  let ((m, _), rest) ← readField? 2 0 59 rest
  let rest ← expect? ':' rest
  let ((s, _), rest) ← readField? 2 0 60 rest
  let (fraction, rest) := readSecondFraction rest
  return (h ++ ':' :: m ++ ':' :: s ++ fraction, rest)

/-- The distance to universal time, as its text; nothing if there is none. -/
def readOffset (cs : List Char) : List Char × List Char :=
  match cs with
  | 'Z' :: rest | 'z' :: rest => (['Z'], rest)
  | c :: rest =>
    if c == '+' || c == '-' then
      let read : Option (List Char × List Char) := do
        let ((h, hours), rest) ← readField? 2 0 23 rest
        let rest ← expect? ':' rest
        let ((m, minutes), rest) ← readField? 2 0 59 rest
        let sign := if hours == 0 && minutes == 0 then '+' else c
        return (sign :: h ++ ':' :: m, rest)
      read.getD ([], cs)
    else ([], cs)
  | [] => ([], cs)

/-- What follows a date: a time after a `T` or a space, or nothing. -/
def readAfterDate (date : List Char) (cs : List Char) : List Char × List Char :=
  match cs with
  | c :: rest =>
    if c == 'T' || c == 't' || c == ' ' then
      match readTime? rest with
      | some (time, rest) =>
        let (offset, rest) := readOffset rest
        (date ++ 'T' :: time ++ offset, rest)
      | none => (date, cs)
    else (date, cs)
  | [] => (date, cs)

/-- The key that a date or time is kept under. -/
def momentKey : String := "$__toml_private_datetime"

def moment (text : List Char) : Value :=
  .mapping [(.string momentKey, .string (String.ofList text))]

def readMoment? (cs : List Char) : Read Value :=
  match readDate? cs with
  | some (date, rest) =>
    let (text, rest) := readAfterDate date rest
    some (moment text, rest)
  | none => (readTime? cs).map fun (text, rest) => (moment text, rest)

/-- A number or a moment. -/
def readNumber? (cs : List Char) : Read Value :=
  ((readMoment? cs).or (readFloat? cs)).or (readInteger? cs)

def readWord? (word : String) (v : Value) (cs : List Char) : Read Value :=
  if word.toList.isPrefixOf cs then some (v, cs.drop word.length) else none

/-- A value that holds no other. -/
def readScalar? (cs : List Char) : Read Value :=
  match cs with
  | '"' :: _ | '\x27' :: _ => (readString? cs).map fun (s, rest) => (.string s, rest)
  | 't' :: _ => readWord? "true" (.bool true) cs
  | 'f' :: _ => readWord? "false" (.bool false) cs
  | _ => readNumber? cs

end BackupProfiles.Toml
