import BackupProfiles.Numeric.NumberText
import BackupProfiles.Text.Blank

/-!
# Durations

A duration is written as numbers with units, as in `1h30m`, and stands for the sum of its terms.
The terms are added as doubles of seconds; the sum is then rounded to nanoseconds. `read` and
`text` agree on whole seconds.
-/

namespace BackupProfiles

structure Duration where
  nanoseconds : Nat
  deriving DecidableEq, Repr, Inhabited

namespace Duration

inductive TimeUnit where
  | nanosecond
  | microsecond
  | millisecond
  | second
  | minute
  | hour
  deriving DecidableEq, Repr

/-- The double nearest to the seconds of a unit. -/
def TimeUnit.seconds : TimeUnit → Binary64
  | nanosecond => Binary64.ofDecimal false 1 (-9)
  | microsecond => Binary64.ofDecimal false 1 (-6)
  | millisecond => Binary64.ofDecimal false 1 (-3)
  | second => Binary64.ofNat 1
  | minute => Binary64.ofNat 60
  | hour => Binary64.ofNat 3600

/-- A unit at the front of a text, the longest that fits. -/
def readUnit? : List Char → Option (TimeUnit × List Char)
  | 'n' :: 's' :: rest => some (.nanosecond, rest)
  | 'u' :: 's' :: rest => some (.microsecond, rest)
  | 'µ' :: 's' :: rest => some (.microsecond, rest)
  | 'm' :: 's' :: rest => some (.millisecond, rest)
  | 's' :: rest => some (.second, rest)
  | 'm' :: rest => some (.minute, rest)
  | 'h' :: rest => some (.hour, rest)
  | _ => none

/-- A number with a unit. -/
structure Term where
  amount : Binary64
  unit : TimeUnit

def Term.seconds (t : Term) : Binary64 := t.amount.mul t.unit.seconds

def isDigit (c : Char) : Bool := Text.isDigitIn 10 c

/-- A number at the front of a text: digits, and perhaps a point with more digits. -/
def readAmount? (cs : List Char) : Option (Binary64 × List Char) :=
  let whole := cs.takeWhile isDigit
  let rest := cs.dropWhile isDigit
  if whole.isEmpty then none
  else match rest with
    | '.' :: more =>
      let places := more.takeWhile isDigit
      if places.isEmpty then none
      else
        let digits := Text.valueIn 10 (whole ++ places)
        some (Binary64.ofDecimal false digits (-places.length), more.dropWhile isDigit)
    | _ => some (Binary64.ofDecimal false (Text.valueIn 10 whole) 0, rest)

def readTerm? (cs : List Char) : Option (Term × List Char) :=
  (readAmount? cs).bind fun (amount, rest) =>
    (readUnit? rest).map fun (unit, rest) => (⟨amount, unit⟩, rest)

/-- One term after the other up to the end; the first argument bounds their number. -/
def readTerms? : Nat → List Char → Option (List Term)
  | _, [] => some []
  | 0, _ => none
  | n + 1, cs =>
    (readTerm? cs).bind fun (term, rest) => (readTerms? n rest).map (term :: ·)

def nanosecondsPerSecond : Nat := 1000000000

/-- Seconds as a duration, to the nearest nanosecond, ties to even. Negative seconds, 2^64 seconds
and more, and what is no number are none. -/
def ofSeconds? : Binary64 → Option Duration
  | .finite negative m e =>
    let (num, den) := Binary64.scaled m 1 (-e)
    if (negative && m != 0) || Text.word64Bound * den ≤ num then none
    else some ⟨Binary64.roundHalfEven (num * nanosecondsPerSecond) den⟩
  | _ => none

inductive ReadFault where
  | malformed
  | outOfRange
  deriving DecidableEq, Repr

/-- Reads a duration; `0` needs no unit. -/
def read (text : String) : Except ReadFault Duration :=
  let cs := Text.trimList text.toList
  if cs = ['0'] then .ok ⟨0⟩
  else match readTerms? cs.length cs with
    | none | some [] => .error .malformed
    | some terms =>
      match ofSeconds? (terms.foldl (fun sum t => sum.add t.seconds) (Binary64.zero false)) with
      | some d => .ok d
      | none => .error .outOfRange

/-- Hours, minutes, and seconds with milliseconds; parts that are zero are left out. -/
def text (d : Duration) : String :=
  let total := d.nanoseconds / nanosecondsPerSecond
  let millis := d.nanoseconds % nanosecondsPerSecond / 1000000
  let hours := total / 3600
  let minutes := total % 3600 / 60
  let seconds := total % 60
  let front := (if hours = 0 then [] else Text.natDigits hours ++ ['h'])
    ++ (if minutes = 0 then [] else Text.natDigits minutes ++ ['m'])
  let back :=
    if millis ≠ 0 then Text.natDigits seconds ++ '.' :: Text.paddedDigits 3 millis ++ ['s']
    else if seconds ≠ 0 ∨ front = [] then Text.natDigits seconds ++ ['s']
    else []
  String.ofList (front ++ back)

end Duration

end BackupProfiles
