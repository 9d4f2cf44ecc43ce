import BackupProfiles.Section.Hooks
import BackupProfiles.Section.Timing

/-!
# Sections with a schedule

Checking, pruning and forgetting have a schedule, hooks and flags, and nothing else.
-/

namespace BackupProfiles

structure ScheduledSection where
  timing : Timing
  hooks : Hooks
  flags : Table FlagValue
  deriving DecidableEq, BEq

namespace ScheduledSection

def shape : Shape := ⟨"ScheduledSection", [], [Timing.checks, Hooks.checks]⟩

def ofEntries (es : Entries) : ScheduledSection :=
  ⟨Timing.ofEntries es, Hooks.ofEntries es, shape.flags es⟩

def read : Reader ScheduledSection := shape.readOpen ofEntries

def toValue (s : ScheduledSection) : Value :=
  Written.record (s.timing.fields ++ s.hooks.fields ++ Written.flags s.flags)

end ScheduledSection

end BackupProfiles
