import BackupProfiles.Value.Basic

/-!
# Plain texts as values

A plain text may stand for null, a boolean, an integer or a double. Integers have a sign and one of
four radixes; digits behind a leading zero are no number. An integer that fits 64 bits is a value,
one that fits only 128 bits is refused, and a larger one is read as a double.
-/

namespace BackupProfiles.Yaml

def isNull (s : String) : Bool := ["null", "Null", "NULL", "~"].contains s

def bool? (s : String) : Option Bool :=
  if ["true", "True", "TRUE"].contains s then some true
  else if ["false", "False", "FALSE"].contains s then some false
  else none

/-- Digits behind a leading zero, with or without a sign. -/
def hasLeadingZero (cs : List Char) : Bool :=
  match (match cs with
    | '+' :: rest => rest
    | '-' :: rest => rest
    | _ => cs) with
  | '0' :: rest => !rest.isEmpty && rest.all (Text.isDigitIn 10)
  | _ => false

/-- A number behind the mark of its radix. -/
def readRadix? : List Char → Option Nat
  | '0' :: 'x' :: rest => Text.readNatIn? 16 rest
  | '0' :: 'o' :: rest => Text.readNatIn? 8 rest
  | '0' :: 'b' :: rest => Text.readNatIn? 2 rest
  | _ => none

def readMagnitude? (cs : List Char) : Option Nat := readRadix? cs <|> Text.readNat? cs

/-- An integer of any size. -/
def readInt? (cs : List Char) : Option Int :=
  if hasLeadingZero cs then none
  else match cs with
    | '+' :: rest => (readMagnitude? rest).map fun n => (n : Int)
    | '-' :: rest => (readMagnitude? rest).map fun n => -(n : Int)
    | _ => (readMagnitude? cs).map fun n => (n : Int)

/-- What becomes of an integer of some size. -/
inductive Size where
  | word
  | refused
  | large
  deriving DecidableEq, Repr

def sizeOf (n : Int) : Size :=
  if -(Text.wordBound 63 : Int) ≤ n && n < Text.wordBound 64 then .word
  else if -(Text.wordBound 127 : Int) ≤ n && n < Text.wordBound 128 then .refused
  else .large

/-- A double. Only spelled out may it be infinite or no number. -/
def float? (s : String) : Option Binary64 :=
  if [".inf", ".Inf", ".INF", "+.inf", "+.Inf", "+.INF"].contains s then some (.infinite false)
  else if ["-.inf", "-.Inf", "-.INF"].contains s then some (.infinite true)
  else if [".nan", ".NaN", ".NAN"].contains s then some .nan
  else (readDecimal? s.toList).filter Binary64.isFinite

/-- The value of an integer, unless it is refused; nothing inside if the text is no integer. -/
def int? (s : String) : Option (Option Value) :=
  match readInt? s.toList with
  | none => some none
  | some n =>
    match sizeOf n with
    | .word => some (some (.number (.int n)))
    | .refused => none
    | .large => some none

/-- The value of a plain text, unless it is refused. -/
def ofPlain? (s : String) : Option Value :=
  if s.isEmpty || isNull s then some .null
  else match bool? s with
    | some b => some (.bool b)
    | none => (int? s).map fun value => value.getD <|
      if hasLeadingZero s.toList then .string s
      else match float? s with
        | some x => .number (.float x)
        | none => .string s

/-- The value of a text whose tag names its type, unless it is of another. -/
def ofTyped? (tag s : String) : Option Value :=
  match tag with
  | "tag:yaml.org,2002:bool" => (bool? s).map .bool
  | "tag:yaml.org,2002:int" => (int? s).join
  | "tag:yaml.org,2002:float" => (float? s).map fun x => .number (.float x)
  | "tag:yaml.org,2002:null" => if isNull s then some .null else none
  | _ => some (.string s)

end BackupProfiles.Yaml
