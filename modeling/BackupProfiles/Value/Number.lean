import BackupProfiles.Numeric.NumberText

/-!
# Numbers of a document

A document holds integers and doubles, and tells `1` from `1.0`.
-/

namespace BackupProfiles

inductive Number where
  | int (n : Int)
  | float (x : Binary64)
  deriving DecidableEq, Repr, Inhabited

namespace Number

/-- The text of a number as documents write it. -/
def text : Number → String
  | int n => Text.intText n
  | float x => NumberStyle.scientific.write x

/-- The integer, when it is one below 2^64 and not negative. -/
def word64? : Number → Option Nat
  | int n => if 0 ≤ n && n < Text.word64Bound then some n.toNat else none
  | float _ => none

def toBinary64 : Number → Binary64
  | int n => Binary64.ofInt n
  | float x => x

end Number

end BackupProfiles
