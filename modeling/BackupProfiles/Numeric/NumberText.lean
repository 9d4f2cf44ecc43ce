import BackupProfiles.Numeric.Shortest

/-!
# The text of a double

Three styles write doubles. `NumberStyle.positional` never uses an exponent and writes whole numbers
without a point; it is the text of flags. `NumberStyle.pointed` always keeps the point; it is the
text in faults. `NumberStyle.scientific` keeps the point and turns to an exponent from `1e16` up and
below `1e-5`; it is the text of numbers in documents. `readDecimal?` reads all of them back.
-/

namespace BackupProfiles

structure NumberStyle where
  tie : Tie
  /-- Whole numbers are written with `.0`. -/
  keepsPoint : Bool
  /-- Whether a number whose decimal point stands that many places after its first digit is
  written without an exponent. -/
  isPositional : Int → Bool
  nan : String
  infinity : String

namespace NumberStyle

/-- Never an exponent, never a trailing `.0`; a tie between two shortest forms goes up. -/
def positional : NumberStyle := ⟨.upward, false, fun _ => true, "NaN", "inf"⟩

/-- Never an exponent, always a point. -/
def pointed : NumberStyle := { positional with keepsPoint := true }

/-- Positional from `1e-5` to below `1e16`, and always with a point there; a tie goes to the even
digit. -/
def scientific : NumberStyle := ⟨.toEven, true, fun p => -5 < p && p ≤ 16, ".nan", ".inf"⟩

def exponentForm (ds : List Char) (point : Int) : List Char :=
  let mantissa := match ds with
    | d :: e :: rest => d :: '.' :: e :: rest
    | _ => ds
  mantissa ++ 'e' :: (Text.intText (point - 1)).toList

def positionalForm (style : NumberStyle) (ds : List Char) (point : Int) : List Char :=
  let size : Int := ds.length
  if point ≤ 0 then '0' :: '.' :: List.replicate (-point).toNat '0' ++ ds
  else if point < size then ds.take point.toNat ++ '.' :: ds.drop point.toNat
  else ds ++ List.replicate (point - size).toNat '0' ++ (if style.keepsPoint then ['.', '0'] else [])

def magnitudeText (style : NumberStyle) (m : Nat) (e : Int) : List Char :=
  if m == 0 then '0' :: (if style.keepsPoint then ['.', '0'] else [])
  else
    let d := shortest style.tie m e
    let ds := Text.natDigits d.digits
    let point := ds.length + d.exponent
    if style.isPositional point then positionalForm style ds point else exponentForm ds point

def write (style : NumberStyle) : Binary64 → String
  | .nan => style.nan
  | .infinite negative => if negative then "-" ++ style.infinity else style.infinity
  | .finite negative m e =>
    let text := String.ofList (style.magnitudeText m e)
    if negative then "-" ++ text else text

end NumberStyle

/-- An exponent: `e` or `E`, an optional sign, digits to the end. Nothing is exponent zero. -/
def readExponent? : List Char → Option Int
  | [] => some 0
  | c :: rest =>
    if c != 'e' && c != 'E' then none
    else match rest with
      | '-' :: ds => (Text.readNat? ds).map fun n => -(n : Int)
      | '+' :: ds => (Text.readNat? ds).map fun n => (n : Int)
      | ds => (Text.readNat? ds).map fun n => (n : Int)

/-- Digits with an optional point and exponent, at least one digit before the exponent. -/
def readMagnitude? (negative : Bool) (cs : List Char) : Option Binary64 :=
  let whole := cs.takeWhile (Text.isDigitIn 10)
  let afterWhole := cs.dropWhile (Text.isDigitIn 10)
  let (places, rest) := match afterWhole with
    | '.' :: more => (more.takeWhile (Text.isDigitIn 10), more.dropWhile (Text.isDigitIn 10))
    | _ => ([], afterWhole)
  if whole.isEmpty && places.isEmpty then none
  else (readExponent? rest).map fun e =>
    Binary64.ofDecimal negative (Text.valueIn 10 (whole ++ places)) (e - places.length)

/-- A decimal with an optional sign, correctly rounded. -/
def readDecimal? : List Char → Option Binary64
  | '-' :: cs => readMagnitude? true cs
  | '+' :: cs => readMagnitude? false cs
  | cs => readMagnitude? false cs

end BackupProfiles
