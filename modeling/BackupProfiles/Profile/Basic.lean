import BackupProfiles.CommandTable
import BackupProfiles.ConfigError
import BackupProfiles.Layout
import BackupProfiles.Section.Backup
import BackupProfiles.Section.Copy
import BackupProfiles.Section.Generic
import BackupProfiles.Section.Init
import BackupProfiles.Section.Retention
import BackupProfiles.Section.Scheduled
import BackupProfiles.ToolVersion

/-!
# Profiles

A profile holds what a document says about one backup: settings, one section for each command that
has a shape of its own, generic sections, and flags. `Runtime` holds what does not come from the
profile's own body: it is kept apart, so that profiles are compared by their content.
-/

namespace BackupProfiles

structure Profile where
  name : String
  description : String
  inherit : String
  creates : Bool
  lock : String
  forceLock : Bool
  runBefore : List String
  runAfter : List String
  runAfterFail : List String
  runFinally : List String
  statusFile : String
  priority : String
  env : Table Secret
  cacheDir : String
  caCert : String
  tlsClientCert : String
  repository : Secret
  repositoryFile : String
  passwordFile : Secret
  passwordCommand : Secret
  keyHint : Secret
  quiet : Bool
  verbose : Nat
  backup? : Option BackupSection
  retention? : Option RetentionSection
  check? : Option ScheduledSection
  prune? : Option ScheduledSection
  forget? : Option ScheduledSection
  copy? : Option CopySection
  init? : Option InitSection
  /-- Every generic command of the table; none where the profile does not define it. -/
  generic : Table (Option GenericSection)
  flags : Table FlagValue
  deriving BEq

/-- What flags and schedules depend on besides the profile. -/
structure Runtime where
  layout : Layout
  table : CommandTable
  configFile : String
  host? : Option String
  version? : Option ToolVersion
  deriving DecidableEq

namespace Runtime

def initial : Runtime := ⟨.flat, .builtin, "", none, none⟩

instance : Inhabited Runtime := ⟨initial⟩

/-- Sets the name of the host; a blank name clears it. -/
def setHost (rt : Runtime) (host : String) : Runtime :=
  let name := Text.trim host
  { rt with host? := if name.isEmpty then none else some name }

/-- Sets the version of the backup tool; a blank text clears it. Nothing if it cannot be read. -/
def setVersion? (rt : Runtime) (version : String) : Option Runtime :=
  if Text.isAllBlank version then some { rt with version? := none }
  else (ToolVersion.read? version).map fun v => { rt with version? := some v }

/-- Sets the version of the backup tool in place; a text that cannot be read is an error. -/
def setVersion (version : String) : ExceptT ConfigError (StateM Runtime) Unit :=
  if Text.isAllBlank version then modify fun rt => { rt with version? := none }
  else match ToolVersion.read? version with
    | some v => modify fun rt => { rt with version? := some v }
    | none => throw (.invalidVersion version)

end Runtime

namespace Profile

def shape : Shape where
  name := "Profile"
  own := [
    ("description", Reader.text.fault?),
    ("inherit", Reader.text.fault?),
    ("initialize", Reader.switch.fault?),
    ("lock", Reader.text.fault?),
    ("force-lock", Reader.switch.fault?),
    ("run-before", Reader.texts.fault?),
    ("run-after", Reader.texts.fault?),
    ("run-after-fail", Reader.texts.fault?),
    ("run-finally", Reader.texts.fault?),
    ("status-file", Reader.text.fault?),
    ("priority", Reader.text.fault?),
    ("env", Reader.fault? (Reader.table Reader.secret)),
    ("cache-dir", Reader.text.fault?),
    ("cacert", Reader.text.fault?),
    ("tls-client-cert", Reader.text.fault?),
    ("repository", Reader.secret.fault?),
    ("repository-file", Reader.text.fault?),
    ("password-file", Reader.secret.fault?),
    ("password-command", Reader.secret.fault?),
    ("key-hint", Reader.secret.fault?),
    ("quiet", Reader.switch.fault?),
    ("verbose", Reader.verbosity.fault?),
    ("backup", Reader.fault? (Reader.optional BackupSection.read)),
    ("retention", Reader.fault? (Reader.optional RetentionSection.read)),
    ("check", Reader.fault? (Reader.optional ScheduledSection.read)),
    ("prune", Reader.fault? (Reader.optional ScheduledSection.read)),
    ("forget", Reader.fault? (Reader.optional ScheduledSection.read)),
    ("copy", Reader.fault? (Reader.optional CopySection.read)),
    ("init", Reader.fault? (Reader.optional InitSection.read))]
  groups := []

def ofEntries (es : Entries) : Profile where
  name := ""
  description := es.read "description" Reader.text ""
  inherit := es.read "inherit" Reader.text ""
  creates := es.read "initialize" Reader.switch false
  lock := es.read "lock" Reader.text ""
  forceLock := es.read "force-lock" Reader.switch false
  runBefore := es.read "run-before" Reader.texts []
  runAfter := es.read "run-after" Reader.texts []
  runAfterFail := es.read "run-after-fail" Reader.texts []
  runFinally := es.read "run-finally" Reader.texts []
  statusFile := es.read "status-file" Reader.text ""
  priority := es.read "priority" Reader.text ""
  env := es.read "env" (Reader.table Reader.secret) .empty
  cacheDir := es.read "cache-dir" Reader.text ""
  caCert := es.read "cacert" Reader.text ""
  tlsClientCert := es.read "tls-client-cert" Reader.text ""
  repository := es.read "repository" Reader.secret ⟨""⟩
  repositoryFile := es.read "repository-file" Reader.text ""
  passwordFile := es.read "password-file" Reader.secret ⟨""⟩
  passwordCommand := es.read "password-command" Reader.secret ⟨""⟩
  keyHint := es.read "key-hint" Reader.secret ⟨""⟩
  quiet := es.read "quiet" Reader.switch false
  verbose := es.read "verbose" Reader.verbosity 0
  backup? := es.read "backup" (Reader.optional BackupSection.read) none
  retention? := es.read "retention" (Reader.optional RetentionSection.read) none
  check? := es.read "check" (Reader.optional ScheduledSection.read) none
  prune? := es.read "prune" (Reader.optional ScheduledSection.read) none
  forget? := es.read "forget" (Reader.optional ScheduledSection.read) none
  copy? := es.read "copy" (Reader.optional CopySection.read) none
  init? := es.read "init" (Reader.optional InitSection.read) none
  generic := .empty
  flags := shape.flags es

/-- Reads the body of a profile, its generic sections left out. -/
def readBody : Reader Profile := shape.readOpen ofEntries

/-- The profile without a name and without entries. -/
def empty : Profile := ofEntries []

instance : Inhabited Profile := ⟨empty⟩

def generic? (p : Profile) (command : String) : Option GenericSection :=
  (p.generic.get? command).join

/-- The names of the sections that the profile defines, in ascending order. -/
def definedSections (p : Profile) : List String :=
  let shaped := [
    ("backup", p.backup?.isSome),
    ("check", p.check?.isSome),
    ("copy", p.copy?.isSome),
    ("forget", p.forget?.isSome),
    ("init", p.init?.isSome),
    ("prune", p.prune?.isSome),
    ("retention", p.retention?.isSome)]
  let shapedNames := (shaped.filter (·.2)).map (·.1)
  let genericNames := (p.generic.entries.filter (·.2.isSome)).map (·.1)
  (shapedNames ++ genericNames).mergeSort

def timing? (p : Profile) (sectionName : String) : Option Timing :=
  match sectionName with
  | "backup" => p.backup?.map (·.timing)
  | "check" => p.check?.map (·.timing)
  | "copy" => p.copy?.map (·.timing)
  | "forget" => p.forget?.map (·.timing)
  | "prune" => p.prune?.map (·.timing)
  | "retention" => p.retention?.map (·.timing)
  | _ => none

def hooks? (p : Profile) (sectionName : String) : Option Hooks :=
  match sectionName with
  | "backup" => p.backup?.map (·.hooks)
  | "check" => p.check?.map (·.hooks)
  | "copy" => p.copy?.map (·.hooks)
  | "forget" => p.forget?.map (·.hooks)
  | "prune" => p.prune?.map (·.hooks)
  | _ => none

/-- The sections with hooks, in the order of the table. -/
def monitoredSections (p : Profile) (table : CommandTable) : List String :=
  table.names.filter fun name =>
    table.isMonitored name && (p.hooks? name).any fun h => !h.isEmpty

/-- The paths of the backup section. -/
def backupPaths (p : Profile) : List String := p.backup?.elim [] BackupSection.paths

/-- Whether the retention section has a schedule, which belongs to the forget section. -/
def schedulesRetention (p : Profile) : Bool := p.retention?.any fun r => r.timing.isScheduled

def fields (p : Profile) : Entries := [
  ("description", .string p.description),
  ("inherit", .string p.inherit),
  ("initialize", .bool p.creates),
  ("lock", .string p.lock),
  ("force-lock", .bool p.forceLock),
  ("run-before", Written.texts p.runBefore),
  ("run-after", Written.texts p.runAfter),
  ("run-after-fail", Written.texts p.runAfterFail),
  ("run-finally", Written.texts p.runFinally),
  ("status-file", .string p.statusFile),
  ("priority", .string p.priority),
  ("env", Written.table Written.secret p.env),
  ("cache-dir", .string p.cacheDir),
  ("cacert", .string p.caCert),
  ("tls-client-cert", .string p.tlsClientCert),
  ("repository", Written.secret p.repository),
  ("repository-file", .string p.repositoryFile),
  ("password-file", Written.secret p.passwordFile),
  ("password-command", Written.secret p.passwordCommand),
  ("key-hint", Written.secret p.keyHint),
  ("quiet", .bool p.quiet),
  ("verbose", Written.integer p.verbose),
  ("backup", Written.optional BackupSection.toValue p.backup?),
  ("retention", Written.optional RetentionSection.toValue p.retention?),
  ("check", Written.optional ScheduledSection.toValue p.check?),
  ("prune", Written.optional ScheduledSection.toValue p.prune?),
  ("forget", Written.optional ScheduledSection.toValue p.forget?),
  ("copy", Written.optional CopySection.toValue p.copy?),
  ("init", Written.optional InitSection.toValue p.init?)]

def toMapping (p : Profile) : Mapping :=
  (p.fields ++ Written.flags p.flags).map fun e => (Value.string e.1, e.2)

/-- The profile as a document, secrets hidden, generic sections left out. -/
def toValue (p : Profile) : Value := .mapping p.toMapping

/-- The profile as a document, secrets hidden, with its generic sections. -/
def shown (p : Profile) : Value :=
  .mapping (p.generic.entries.foldl
    (fun m e =>
      match e.2 with
      | some g => Mapping.insert m (.string e.1) g.toValue
      | none => m)
    p.toMapping)

end Profile

end BackupProfiles
