import BackupProfiles.Profile.Basic

/-!
# Schedules

A job is what a scheduler is told: a title, the times, and how to run. Jobs come from the sections
of a profile that have a schedule, and from the entries of a nested document that declare one.
-/

namespace BackupProfiles

structure Job where
  title : String
  subTitle : String
  schedules : List String
  permission : String
  log : String
  priority : String
  lockMode : String
  lockWait? : Option Duration
  configFile : String
  deriving DecidableEq, Repr

/-- A declared schedule: a command to run for some profiles. -/
structure ScheduleEntry where
  name : String
  group : String
  profiles : List String
  command : String
  schedule : List String
  permission : String
  log : String
  priority : String
  lockMode : String
  lockWait? : Option Duration
  deriving DecidableEq, Repr

namespace Job

/-- The job of a section of a profile. -/
def ofTiming (title subTitle configFile : String) (t : Timing) : Job :=
  ⟨title, subTitle, t.schedule, t.permission, t.log, t.priority, t.lockMode, t.lockWait?,
    configFile⟩

def toValue (j : Job) : Value :=
  Written.record [
    ("title", .string j.title),
    ("sub-title", .string j.subTitle),
    ("schedules", Written.texts j.schedules),
    ("permission", .string j.permission),
    ("log", .string j.log),
    ("priority", .string j.priority),
    ("lock-mode", .string j.lockMode),
    ("lock-wait", Written.wait j.lockWait?),
    ("config-file", .string j.configFile)]

end Job

namespace ScheduleEntry

def checks : FieldChecks := [
  ("group", Reader.text.fault?),
  ("profiles", Reader.texts.fault?),
  ("run", Reader.text.fault?),
  ("schedule", Reader.texts.fault?),
  ("permission", Reader.text.fault?),
  ("log", Reader.text.fault?),
  ("priority", Reader.text.fault?),
  ("lock-mode", Reader.text.fault?),
  ("lock-wait", Reader.duration.fault?)]

def ofEntries (name : String) (es : Entries) : ScheduleEntry where
  name := name
  group := es.read "group" Reader.text ""
  profiles := es.read "profiles" Reader.texts []
  command := es.read "run" Reader.text ""
  schedule := es.read "schedule" Reader.texts []
  permission := es.read "permission" Reader.text ""
  log := es.read "log" Reader.text ""
  priority := es.read "priority" Reader.text ""
  lockMode := es.read "lock-mode" Reader.text ""
  lockWait? := es.read "lock-wait" Reader.duration none

def read (name : String) : Reader ScheduleEntry :=
  Shape.readClosed "ScheduleSection" checks (ofEntries name)

def toValue (e : ScheduleEntry) : Value :=
  Written.record [
    ("group", .string e.group),
    ("profiles", Written.texts e.profiles),
    ("run", .string e.command),
    ("schedule", Written.texts e.schedule),
    ("permission", .string e.permission),
    ("log", .string e.log),
    ("priority", .string e.priority),
    ("lock-mode", .string e.lockMode),
    ("lock-wait", Written.wait e.lockWait?)]

/-- An entry without a name is titled after its first profile and its command. -/
def job (e : ScheduleEntry) (configFile : String) : Job :=
  let (title, subTitle) :=
    if e.name.isEmpty then (e.profiles.head?.getD "", e.command) else (e.name, "")
  ⟨title, subTitle, e.schedule, e.permission, e.log, e.priority, e.lockMode, e.lockWait?,
    configFile⟩

end ScheduleEntry

/-- A job for each section with a schedule, titled after the profile. -/
def Profile.jobs (rt : Runtime) (p : Profile) : List Job :=
  rt.table.schedulableNames.filterMap fun command =>
    match p.timing? command with
    | some t => if t.isScheduled then some (Job.ofTiming p.name command rt.configFile t) else none
    | none => none

end BackupProfiles
