import BackupProfiles.Text.Blank
import BackupProfiles.Text.Digits
import BackupProfiles.Text.Split

/-!
# Versions of the backup tool

A version has three numbers. `read?` is lenient: blanks around it and any number of leading `v`
do not count, a component counts up to its first character that is no digit, and what is missing
is zero. The tool has no release 1.0, so a first number of 10 or more is that of a minor release.
-/

namespace BackupProfiles

structure ToolVersion where
  major : Nat
  minor : Nat
  patch : Nat
  deriving DecidableEq, Repr, Inhabited

namespace ToolVersion

/-- The number a component starts with, if it is below 2^64. -/
def leadingNumber? (component : List Char) : Option Nat :=
  (Text.readNat? (component.takeWhile (Text.isDigitIn 10))).filter (· < Text.word64Bound)

def firstMinorAlone : Nat := 10

def ofNumbers (a b c : Nat) : ToolVersion :=
  if firstMinorAlone ≤ a then ⟨0, a, b⟩ else ⟨a, b, c⟩

def read? (text : String) : Option ToolVersion :=
  let numbers := (Text.splitChars '.' ((Text.trimList text.toList).dropWhile (· == 'v'))).map
    leadingNumber?
  (numbers.head?.join).map fun a =>
    ofNumbers a ((numbers[1]?.join).getD 0) ((numbers[2]?.join).getD 0)

def text (v : ToolVersion) : String :=
  Text.natText v.major ++ "." ++ Text.natText v.minor ++ "." ++ Text.natText v.patch

/-- Later or equal, the first number that differs deciding. -/
def reaches (v w : ToolVersion) : Bool :=
  w.major < v.major
    || (w.major == v.major && (w.minor < v.minor || (w.minor == v.minor && w.patch ≤ v.patch)))

/-- The first release that names the source of a copy with flags of their own. -/
def namesSources : ToolVersion := ⟨0, 14, 0⟩

/-- Whether the flags of a source repository start with `from-`; an unknown version has none. -/
def usesSourceFlags (v? : Option ToolVersion) : Bool := v?.any (reaches · namesSources)

end ToolVersion

end BackupProfiles
