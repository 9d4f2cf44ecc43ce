import BackupProfiles.Value.Basic
import BackupProfiles.Text.Blank

/-!
# Layouts of a document

In a flat document the profiles stand at the root, in a nested one under a key of their own, and
schedules can be declared. The document says which by its version number.
-/

namespace BackupProfiles

inductive Layout where
  | flat
  | nested
  deriving DecidableEq, Repr, Inhabited

namespace Layout

def text : Layout → String
  | flat => "V1"
  | nested => "V2"

def versionNumber? : Option Value → Option Nat
  | some (.number n) => n.word64?
  | some (.string s) => Text.readWord64? (Text.trimList s.toList)
  | _ => none

/-- A version of 2 or more means nested; anything missing or unrecognised means flat. -/
def ofValue (version? : Option Value) : Layout :=
  match versionNumber? version? with
  | some n => if 2 ≤ n then nested else flat
  | none => flat

end Layout

end BackupProfiles
