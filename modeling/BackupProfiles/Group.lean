import BackupProfiles.Layout
import BackupProfiles.Section.Written

/-!
# Groups

A group names profiles that run together. In a flat document a group is a list of names, in a
nested one a section of its own.
-/

namespace BackupProfiles

structure Group where
  description : String
  profiles : List String
  continueOnError? : Option Bool
  deriving DecidableEq, Repr, Inhabited

namespace Group

def checks : FieldChecks := [
  ("description", Reader.text.fault?),
  ("profiles", Reader.texts.fault?),
  ("continue-on-error", Reader.fault? (Reader.optional Reader.switch))]

def ofEntries (es : Entries) : Group where
  description := es.read "description" Reader.text ""
  profiles := es.read "profiles" Reader.texts []
  continueOnError? := es.read "continue-on-error" (Reader.optional Reader.switch) none

def read : Reader Group := Shape.readClosed "Group" checks ofEntries

def ofNames (profiles : List String) : Group := ⟨"", profiles, none⟩

/-- All groups of a document. -/
def readAll (layout : Layout) : Reader (Table Group) := fun v =>
  match layout with
  | .flat => (Reader.table Reader.textList v).map (Table.map ofNames)
  | .nested => Reader.table read v

def toValue (g : Group) : Value :=
  Written.record [
    ("description", .string g.description),
    ("profiles", Written.texts g.profiles),
    ("continue-on-error", Written.optional Value.bool g.continueOnError?)]

end Group

end BackupProfiles
