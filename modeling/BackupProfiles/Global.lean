import BackupProfiles.Section.Written

/-!
# Global settings

Settings of a document that all profiles share.
-/

namespace BackupProfiles

structure Global where
  defaultCommand : String
  creates : Bool
  priority : String
  nice : Int
  ionice : Bool
  ioniceClass : Int
  ioniceLevel : Int
  toolPath : String
  /-- The version to go by when the tool is not asked. -/
  toolVersion : String
  minMemory : Int
  deriving DecidableEq, Repr

namespace Global

def checks : FieldChecks := [
  ("default-command", Reader.text.fault?),
  ("initialize", Reader.switch.fault?),
  ("priority", Reader.text.fault?),
  ("nice", Reader.int32.fault?),
  ("ionice", Reader.switch.fault?),
  ("ionice-class", Reader.int32.fault?),
  ("ionice-level", Reader.int32.fault?),
  ("restic-binary", Reader.text.fault?),
  ("restic-version", Reader.text.fault?),
  ("min-memory", Reader.word64.fault?)]

def ofEntries (es : Entries) : Global where
  defaultCommand := es.read "default-command" Reader.text "snapshots"
  creates := es.read "initialize" Reader.switch false
  priority := es.read "priority" Reader.text "normal"
  nice := es.read "nice" Reader.int32 0
  ionice := es.read "ionice" Reader.switch false
  ioniceClass := es.read "ionice-class" Reader.int32 2
  ioniceLevel := es.read "ionice-level" Reader.int32 0
  toolPath := es.read "restic-binary" Reader.text ""
  toolVersion := es.read "restic-version" Reader.text ""
  minMemory := es.read "min-memory" Reader.word64 100

def read : Reader Global := Shape.readClosed "Global" checks ofEntries

def default : Global := ofEntries []

instance : Inhabited Global := ⟨default⟩

def toValue (g : Global) : Value :=
  Written.record [
    ("default-command", .string g.defaultCommand),
    ("initialize", .bool g.creates),
    ("priority", .string g.priority),
    ("nice", Written.integer g.nice),
    ("ionice", .bool g.ionice),
    ("ionice-class", Written.integer g.ioniceClass),
    ("ionice-level", Written.integer g.ioniceLevel),
    ("restic-binary", .string g.toolPath),
    ("restic-version", .string g.toolVersion),
    ("min-memory", Written.integer g.minMemory)]

end Global

end BackupProfiles
