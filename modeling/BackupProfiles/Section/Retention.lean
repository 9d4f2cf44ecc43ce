import BackupProfiles.Section.Timing

/-!
# The retention section

Which snapshots to keep. The paths and tags that select them are written out, taken from the backup
section, or left out; `Choice` says which.
-/

namespace BackupProfiles

inductive Choice where
  | unset
  | fromBackup
  | disabled
  | values (items : List String)
  deriving DecidableEq, Repr, Inhabited

namespace Choice

/-- An item of a list; numbers count as their texts. -/
def readItem : Reader String
  | .string s => .ok s
  | .number n => .ok n.text
  | v => .error (.notText v.kind)

def read : Reader Choice
  | .null => .ok unset
  | .bool true => .ok fromBackup
  | .bool false => .ok disabled
  | .string s => .ok (if s = "" then unset else values [s])
  | .list items => (items.mapM readItem).map values
  | v => .error (.notChoice v.kind)

def toValue : Choice → Value
  | unset => .null
  | fromBackup => .bool true
  | disabled => .bool false
  | values items => Written.texts items

end Choice

structure RetentionSection where
  beforeBackup : Bool
  afterBackup : Bool
  path : Choice
  tag : Choice
  timing : Timing
  flags : Table FlagValue
  deriving DecidableEq, BEq

namespace RetentionSection

def shape : Shape where
  name := "RetentionSection"
  own := [
    ("before-backup", Reader.switch.fault?),
    ("after-backup", Reader.switch.fault?),
    ("path", Reader.fault? Choice.read),
    ("tag", Reader.fault? Choice.read)]
  groups := [Timing.checks]

def ofEntries (es : Entries) : RetentionSection where
  beforeBackup := es.read "before-backup" Reader.switch false
  afterBackup := es.read "after-backup" Reader.switch false
  path := es.read "path" Choice.read .unset
  tag := es.read "tag" Choice.read .unset
  timing := Timing.ofEntries es
  flags := shape.flags es

def read : Reader RetentionSection := shape.readOpen ofEntries

def fields (r : RetentionSection) : Entries := [
    ("before-backup", .bool r.beforeBackup),
    ("after-backup", .bool r.afterBackup),
    ("path", r.path.toValue),
    ("tag", r.tag.toValue)]
  ++ r.timing.fields

def toValue (r : RetentionSection) : Value := Written.record (r.fields ++ Written.flags r.flags)

end RetentionSection

end BackupProfiles
