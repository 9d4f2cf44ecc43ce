import BackupProfiles.Value.Basic

/-!
# Values of flags

A flag takes a switch, a number, a text or a list of texts. `ofValue` turns a value of a document
into one, dropping its tags; maps, and lists in lists, are refused. `emitted` lists what stands on
the command line: a switch that is off, zero and empty values suppress the flag.
-/

namespace BackupProfiles

inductive FlagValue where
  | switch (on : Bool)
  | integer (n : Int)
  | float (x : Binary64)
  | text (s : String)
  | list (items : List String)
  deriving DecidableEq, Repr, Inhabited

namespace FlagValue

/-- Why a value cannot stand in a flag. -/
inductive Refusal where
  | nestedMap
  | nestedItem (found : Kind)
  deriving DecidableEq, Repr

def Refusal.message : Refusal → String
  | nestedMap => "nested maps are not valid flag values"
  | nestedItem found => "list items must be scalars, got '" ++ found.text ++ "'"

/-- Flag values are equal when they are equal as numbers and texts. -/
def same : FlagValue → FlagValue → Bool
  | float x, float y => x.sameNumber y
  | a, b => a == b

instance : BEq FlagValue := ⟨same⟩

def floatText (x : Binary64) : String := NumberStyle.positional.write x

def numberText : Number → String
  | .int n => Text.intText n
  | .float x => floatText x

/-- An item of a list as text. -/
def ofItem : Value → Except Refusal String
  | .null => .ok ""
  | .bool b => .ok (Value.boolText b)
  | .number n => .ok (numberText n)
  | .string s => .ok s
  | .tagged _ content => ofItem content
  | .list _ => .error (.nestedItem .list)
  | .mapping _ => .error (.nestedItem .map)

/-- Integers that do not fit 64 bits with a sign are kept as their digits. -/
def ofNumber : Number → FlagValue
  | .int n => if n < Text.wordBound 63 then .integer n else .text (Text.intText n)
  | .float x => .float x

def ofValue : Value → Except Refusal FlagValue
  | .null => .ok (.text "")
  | .bool b => .ok (.switch b)
  | .number n => .ok (ofNumber n)
  | .string s => .ok (.text s)
  | .list items => (items.mapM ofItem).map .list
  | .mapping _ => .error .nestedMap
  | .tagged _ content => ofValue content

/-- The values on the command line, none when the flag is suppressed. No value at all makes a flag
that is only there. -/
def emitted? : FlagValue → Option (List String)
  | switch on => if on then some [] else none
  | integer n => if n = 0 then none else some [Text.intText n]
  | float x => if x.isZero then none else some [floatText x]
  | text s => if s = "" then none else some [s]
  | list items => if items = [] then none else some items

def text? : FlagValue → Option String
  | text s => some s
  | _ => none

def toValue : FlagValue → Value
  | switch on => .bool on
  | integer n => .number (.int n)
  | float x => .number (.float x)
  | text s => .string s
  | list items => .list (items.map .string)

end FlagValue

end BackupProfiles
