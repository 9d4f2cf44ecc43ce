import BackupProfiles.Section.Written

/-!
# Generic sections

The section of a command without a shape of its own: commands to run around it, and flags.
-/

namespace BackupProfiles

structure GenericSection where
  runBefore : List String
  runAfter : List String
  flags : Table FlagValue
  deriving DecidableEq, BEq

namespace GenericSection

def shape : Shape where
  name := "GenericSection"
  own := [("run-before", Reader.texts.fault?), ("run-after", Reader.texts.fault?)]
  groups := []

def ofEntries (es : Entries) : GenericSection where
  runBefore := es.read "run-before" Reader.texts []
  runAfter := es.read "run-after" Reader.texts []
  flags := shape.flags es

def read : Reader GenericSection := shape.readOpen ofEntries

/-- The section without entries. -/
def empty : GenericSection := ofEntries []

def fields (g : GenericSection) : Entries := [
  ("run-before", Written.texts g.runBefore),
  ("run-after", Written.texts g.runAfter)]

def toValue (g : GenericSection) : Value := Written.record (g.fields ++ Written.flags g.flags)

end GenericSection

end BackupProfiles
