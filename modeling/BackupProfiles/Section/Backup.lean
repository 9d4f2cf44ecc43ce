import BackupProfiles.Section.Hooks
import BackupProfiles.Section.Timing

/-!
# The backup section

What is backed up, with the hooks, the schedule and the flags of the backup command. A source is a
path or a pattern of paths; `expansion?` holds what the patterns were found to stand for.
-/

namespace BackupProfiles

/-- A source as it is written, with the paths it stands for. -/
structure ExpandedSource where
  pattern : String
  paths : List String
  deriving DecidableEq, Repr, Inhabited

structure BackupSection where
  checkBefore : Bool
  checkAfter : Bool
  runBefore : List String
  runAfter : List String
  runAfterFail : List String
  usesStdin : Bool
  stdinCommand : List String
  source : List String
  exclude : List String
  iexclude : List String
  excludeFile : List String
  filesFrom : List String
  tag : List String
  expansion? : Option (List ExpandedSource)
  timing : Timing
  hooks : Hooks
  flags : Table FlagValue
  deriving DecidableEq, BEq

namespace BackupSection

def shape : Shape where
  name := "BackupSection"
  own := [
    ("check-before", Reader.switch.fault?),
    ("check-after", Reader.switch.fault?),
    ("run-before", Reader.texts.fault?),
    ("run-after", Reader.texts.fault?),
    ("run-after-fail", Reader.texts.fault?),
    ("stdin", Reader.switch.fault?),
    ("stdin-command", Reader.texts.fault?),
    ("source", Reader.texts.fault?),
    ("exclude", Reader.texts.fault?),
    ("iexclude", Reader.texts.fault?),
    ("exclude-file", Reader.texts.fault?),
    ("files-from", Reader.texts.fault?),
    ("tag", Reader.texts.fault?)]
  groups := [Timing.checks, Hooks.checks]

def ofEntries (es : Entries) : BackupSection where
  checkBefore := es.read "check-before" Reader.switch false
  checkAfter := es.read "check-after" Reader.switch false
  runBefore := es.read "run-before" Reader.texts []
  runAfter := es.read "run-after" Reader.texts []
  runAfterFail := es.read "run-after-fail" Reader.texts []
  usesStdin := es.read "stdin" Reader.switch false
  stdinCommand := es.read "stdin-command" Reader.texts []
  source := es.read "source" Reader.texts []
  exclude := es.read "exclude" Reader.texts []
  iexclude := es.read "iexclude" Reader.texts []
  excludeFile := es.read "exclude-file" Reader.texts []
  filesFrom := es.read "files-from" Reader.texts []
  tag := es.read "tag" Reader.texts []
  expansion? := none
  timing := Timing.ofEntries es
  hooks := Hooks.ofEntries es
  flags := shape.flags es

def read : Reader BackupSection := shape.readOpen ofEntries

/-- The section without entries. -/
def empty : BackupSection := ofEntries []

def fields (b : BackupSection) : Entries := [
    ("check-before", .bool b.checkBefore),
    ("check-after", .bool b.checkAfter),
    ("run-before", Written.texts b.runBefore),
    ("run-after", Written.texts b.runAfter),
    ("run-after-fail", Written.texts b.runAfterFail),
    ("stdin", .bool b.usesStdin),
    ("stdin-command", Written.texts b.stdinCommand),
    ("source", Written.texts b.source),
    ("exclude", Written.texts b.exclude),
    ("iexclude", Written.texts b.iexclude),
    ("exclude-file", Written.texts b.excludeFile),
    ("files-from", Written.texts b.filesFrom),
    ("tag", Written.texts b.tag)]
  ++ b.timing.fields ++ b.hooks.fields

def toValue (b : BackupSection) : Value := Written.record (b.fields ++ Written.flags b.flags)

/-- The paths to back up: what the sources stand for, or the sources before that is known. -/
def paths (b : BackupSection) : List String :=
  match b.expansion? with
  | some found => found.flatMap (·.paths)
  | none => b.source

def expand (find : String → List String) (b : BackupSection) : BackupSection :=
  { b with expansion? := some (b.source.map fun pattern => ⟨pattern, find pattern⟩) }

end BackupSection

end BackupProfiles
