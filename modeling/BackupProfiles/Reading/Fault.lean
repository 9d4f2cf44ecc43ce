import BackupProfiles.Duration
import BackupProfiles.FlagValue
import BackupProfiles.Text.Quoted

/-!
# Faults of values

Why a value cannot be read as what a field holds. A mismatch is found by the library that reads
fields and has a text of that library (`Mismatch.text`); every other fault is worded here.
-/

namespace BackupProfiles

/-- What a mismatch tells of a value: scalars are quoted, of the others only the form is told. -/
inductive Appearance where
  | null
  | bool (b : Bool)
  | number (n : Number)
  | string (s : String)
  | list
  | map
  | tagged
  deriving DecidableEq, Repr

namespace Appearance

def of : Value → Appearance
  | .null => null
  | .bool b => bool b
  | .number n => number n
  | .string s => string s
  | .list _ => list
  | .mapping _ => map
  | .tagged _ _ => tagged

def text : Appearance → String
  | null => "unit value"
  | bool b => "boolean `" ++ Value.boolText b ++ "`"
  | number (.int n) => "integer `" ++ Text.intText n ++ "`"
  | number (.float x) => "floating point `" ++ NumberStyle.pointed.write x ++ "`"
  | string s => "string " ++ Text.quoted s
  | list => "sequence"
  | map => "map"
  | tagged => "enum"

end Appearance

/-- How a value differs from the type of its field. -/
inductive Mismatch where
  /-- The value has another form than is expected. -/
  | form (found : Appearance) (expected : String)
  /-- The integer is out of the range of the type. -/
  | range (n : Int) (expected : String)
  | duplicate (field : String)
  /-- The value is neither one item nor a list of items. -/
  | noVariant
  /-- A tag stands where the value has to be kept for later. -/
  | tag
  deriving DecidableEq, Repr

namespace Mismatch

/-- Why a value is neither one item nor a list of items. -/
def ofVariants (v : Value) : Mismatch := if v.hasTag then tag else noVariant

def text : Mismatch → String
  | form found expected => "invalid type: " ++ found.text ++ ", expected " ++ expected
  | range n expected =>
    "invalid value: integer `" ++ Text.intText n ++ "`, expected " ++ expected
  | duplicate field => "duplicate field `" ++ field ++ "`"
  | noVariant => "data did not match any variant of untagged enum OneOrMany"
  | tag => "untagged and internally tagged enums do not support enum input"

end Mismatch

inductive Fault where
  | mismatch (why : Mismatch)
  | verbosityLevel (n : Number)
  | notLevel (found : Kind)
  | durationNumber (n : Number)
  | durationText (why : Duration.ReadFault) (text : String)
  | notDuration (found : Kind)
  | notText (found : Kind)
  | notChoice (found : Kind)
  | flagValue (why : FlagValue.Refusal)
  deriving DecidableEq, Repr

namespace Fault

/-- The value has another form than is expected. -/
def unexpected (v : Value) (expected : String) : Fault :=
  mismatch (.form (.of v) expected)

def gotKind (expected : String) (found : Kind) : String :=
  "expected " ++ expected ++ ", got '" ++ found.text ++ "'"

def text : Fault → String
  | mismatch why => why.text
  | verbosityLevel n => "invalid verbosity level " ++ n.text
  | notLevel found => gotKind "a boolean or a level" found
  | durationNumber n => "invalid duration " ++ n.text
  | durationText .malformed text => "invalid duration '" ++ text ++ "'"
  | durationText .outOfRange text => "duration out of range '" ++ text ++ "'"
  | notDuration found => gotKind "a duration" found
  | notText found => gotKind "a string" found
  | notChoice found => gotKind "a boolean or a list" found
  | flagValue why => why.message

/-- The text of a fault that is worded here. -/
def message? : Fault → Option String
  | mismatch _ => none
  | f => some f.text

end Fault

end BackupProfiles
