import BackupProfiles.Section.Written

/-!
# Timing

When and how a section runs on a schedule. The fields are shared by all sections that can be
scheduled.
-/

namespace BackupProfiles

structure Timing where
  schedule : List String
  permission : String
  log : String
  priority : String
  lockMode : String
  lockWait? : Option Duration
  deriving DecidableEq, Repr

namespace Timing

def none : Timing := ⟨[], "", "", "", "", .none⟩

instance : Inhabited Timing := ⟨none⟩

def isScheduled (t : Timing) : Bool := !t.schedule.isEmpty

def checks : FieldChecks := [
  ("schedule", Reader.texts.fault?),
  ("schedule-permission", Reader.text.fault?),
  ("schedule-log", Reader.text.fault?),
  ("schedule-priority", Reader.text.fault?),
  ("schedule-lock-mode", Reader.text.fault?),
  ("schedule-lock-wait", Reader.duration.fault?)]

def ofEntries (es : Entries) : Timing where
  schedule := es.read "schedule" Reader.texts []
  permission := es.read "schedule-permission" Reader.text ""
  log := es.read "schedule-log" Reader.text ""
  priority := es.read "schedule-priority" Reader.text ""
  lockMode := es.read "schedule-lock-mode" Reader.text ""
  lockWait? := es.read "schedule-lock-wait" Reader.duration .none

def fields (t : Timing) : Entries := [
  ("schedule", Written.texts t.schedule),
  ("schedule-permission", .string t.permission),
  ("schedule-log", .string t.log),
  ("schedule-priority", .string t.priority),
  ("schedule-lock-mode", .string t.lockMode),
  ("schedule-lock-wait", Written.wait t.lockWait?)]

end Timing

end BackupProfiles
