import BackupProfiles.Document.Basic
import BackupProfiles.Files.Glob
import BackupProfiles.Global
import BackupProfiles.Group
import BackupProfiles.Profile.Anchor
import BackupProfiles.Profile.Decode
import BackupProfiles.Profile.Inherit
import BackupProfiles.Schedule

/-!
# Configurations

A configuration is a document with the file it came from and a table of commands. It lists its
profiles, groups and schedules, and resolves a profile: the body is merged over its ancestors and
read, its files are anchored at the folder of the configuration file, and its sources are expanded.
-/

namespace BackupProfiles

/-- Description and sections of a profile, for lists of profiles. -/
structure ProfileSummary where
  description : String
  sections : List String
  deriving DecidableEq, Repr

structure Config where
  file : String
  document : Document
  table : CommandTable
  deriving DecidableEq

namespace Config

def ofDocument (document : Document) (file : String) : Config := ⟨file, document, .builtin⟩

/-- Reads a configuration file; the format follows from its name. -/
def load (s : Surroundings) (path : String) : Except ConfigError Config :=
  match Format.ofPath? path with
  | none => .error (.unsupportedFormat path)
  | some format =>
    match s.contents path with
    | .error why => .error (.unreadableFile path why)
    | .ok text => (Document.parse format text).map fun document => ofDocument document path

def layout (c : Config) : Layout := Layout.ofValue (c.document.get? "version")

/-- The folder that files of the configuration are seen from. -/
def rootFolder (c : Config) : String :=
  let folder := Path.folderText c.file
  if folder.isEmpty then "." else folder

/-- Where the profiles of a layout stand. -/
def profilesPath : Layout → List String
  | .flat => []
  | .nested => ["profiles"]

/-- The keys of the root of a flat document that are no profiles. -/
def reserved : List String := ["global", "groups", "includes", "version", "schedules"]

def profileValue? (c : Config) (name : String) : Option Value :=
  c.document.at? (profilesPath c.layout ++ [name])

def hasProfile (c : Config) (name : String) : Bool := (c.profileValue? name).isSome

def profileNames (c : Config) : List String :=
  ((c.document.keys (profilesPath c.layout)).filter fun name =>
    c.layout = .nested || !reserved.contains name).mergeSort

def summaryOf (body : Mapping) : ProfileSummary where
  description := (body.filterMap fun e =>
    match e with
    | (key, .string s) => if key.keyText = some "description" then some s else none
    | _ => none).getLast?.getD ""
  sections := (body.filterMap fun e =>
    match e with
    | (key, .mapping _) => key.keyText
    | _ => none).mergeSort

/-- Every profile with its summary. -/
def profileSummaries (c : Config) : Table ProfileSummary :=
  Table.ofList (c.profileNames.map fun name =>
    match c.profileValue? name with
    | some (.mapping body) => (name, summaryOf body)
    | _ => (name, ⟨"", []⟩))

/-- The mapping of all profiles. -/
def profiles (c : Config) : Mapping := (c.document.mapping? (profilesPath c.layout)).getD []

theorem profiles_of_flat {c : Config} (h : c.layout = .flat) : c.profiles = c.document.root := by
  rw [profiles, h]
  rfl

theorem profiles_of_nested {c : Config} (h : c.layout = .nested) : c.profiles =
    ((c.document.root.get? (.string "profiles")).bind fun v => v.untagged.mapping?).getD [] := by
  rw [profiles, h, Document.mapping?]
  simp only [profilesPath, Document.descend, Value.untagged, Value.member?, Value.mapping?,
    Option.bind_some]
  rcases c.document.root.get? (.string "profiles") with _ | v
  · rfl
  · rfl

def runtime (c : Config) : Runtime := ⟨c.layout, c.table, c.file, none, none⟩

/-- What resolving a profile comes to, with the issues found on the way. -/
structure Resolved where
  result : Except ConfigError Profile
  issues : List FoundIssue

def resolve (c : Config) (s : Surroundings) (name : String) : Resolved :=
  match mergedBody c.profiles name with
  | .error e => ⟨.error e, []⟩
  | .ok body =>
    let decoded := decode c.table name body
    match decoded.result with
    | .error f => ⟨.error (.unreadable name f), decoded.issues⟩
    | .ok p =>
      ⟨.ok ((p.anchor s.home? c.rootFolder).expandSources (Glob.expand s)), decoded.issues⟩

/-- A part of the root read whole; it is the default when it is missing or null. -/
def part {α : Type} (c : Config) (key : String) (r : Reader α) (default : α) :
    Except ConfigError α :=
  match c.document.get? key with
  | none | some .null => .ok default
  | some v =>
    match r v with
    | .ok a => .ok a
    | .error f => .error (.unreadable key f)

def global (c : Config) : Except ConfigError Global := c.part "global" Global.read .default

def groups (c : Config) : Except ConfigError (Table Group) :=
  c.part "groups" (Group.readAll c.layout) .empty

def hasGroup (c : Config) (name : String) : Bool :=
  match c.groups with
  | .ok groups => groups.contains name
  | .error _ => false

def group (c : Config) (name : String) : Except ConfigError Group := do
  let groups ← c.groups
  match groups.get? name with
  | some g => .ok g
  | none => .error (.groupNotFound name)

/-- The names of the declared schedules; only a nested document has any. -/
def scheduleNames (c : Config) : List String :=
  match c.layout with
  | .flat => []
  | .nested => (c.document.keys ["schedules"]).mergeSort

def scheduleEntry (c : Config) (name : String) : Except ConfigError ScheduleEntry :=
  let value? := match c.layout with
    | .flat => none
    | .nested => c.document.at? ["schedules", name]
  match value? with
  | none => .error (.scheduleNotFound name)
  | some v =>
    match ScheduleEntry.read name v with
    | .ok e => .ok e
    | .error f => .error (.unreadable ("schedules." ++ name) f)

/-- The jobs of the declared schedules that name a profile, up to the first that cannot be read. -/
def declaredJobs (c : Config) (profile : String) : Except ConfigError (List Job) := do
  let entries ← c.scheduleNames.mapM c.scheduleEntry
  return (entries.filter fun e => e.profiles.contains profile).map fun e => e.job c.file

/-- The files that are looked for when none is given: in the current folder, then in the folder of
the user's settings. -/
def candidates (home? : Option String) : List String :=
  let folders := "." :: home?.toList.map fun home =>
    Path.joinText (Path.joinText home ".config") "resticprofile"
  folders.flatMap fun folder =>
    Format.extensions.map fun extension => Path.joinText folder ("profiles." ++ extension)

/-- The configuration file: the one given, or the first that is there. -/
def find? (s : Surroundings) (given? : Option String) : Option String :=
  match given? with
  | some path => some path
  | none => (candidates s.home?).find? s.isFile

end Config

end BackupProfiles
