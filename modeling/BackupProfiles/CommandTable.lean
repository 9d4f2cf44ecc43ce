/-!
# Commands of the backup tool

A table lists the sections a profile can have and what is known of each. Sections without a shape
of their own are generic. A name may stand in a table more than once; look-ups take the first row.
-/

namespace BackupProfiles

inductive CommandKind where
  | backup
  | retention
  | check
  | prune
  | forget
  | copy
  | init
  /-- Flags and hooks only. -/
  | generic
  deriving DecidableEq, Repr, Inhabited

structure CommandInfo where
  name : String
  kind : CommandKind
  schedulable : Bool
  /-- Whether a `host` flag that is on is given the name of the host. -/
  supportsHost : Bool
  monitored : Bool
  /-- A section that is no command of the tool. -/
  auxiliary : Bool
  deriving DecidableEq, Repr, Inhabited

def CommandInfo.isGeneric (c : CommandInfo) : Bool := c.kind == .generic

structure CommandTable where
  rows : List CommandInfo
  deriving DecidableEq, Repr, Inhabited

namespace CommandTable

def find? (t : CommandTable) (name : String) : Option CommandInfo :=
  t.rows.find? fun c => c.name == name

def contains (t : CommandTable) (name : String) : Bool := (t.find? name).isSome

def kindOf? (t : CommandTable) (name : String) : Option CommandKind := (t.find? name).map (·.kind)

def isGeneric (t : CommandTable) (name : String) : Bool := (t.find? name).any CommandInfo.isGeneric

def isSchedulable (t : CommandTable) (name : String) : Bool := (t.find? name).any (·.schedulable)

def supportsHost (t : CommandTable) (name : String) : Bool := (t.find? name).any (·.supportsHost)

def isMonitored (t : CommandTable) (name : String) : Bool := (t.find? name).any (·.monitored)

def names (t : CommandTable) : List String := t.rows.map (·.name)

def commandNames (t : CommandTable) : List String :=
  (t.rows.filter fun c => !c.auxiliary).map (·.name)

def genericNames (t : CommandTable) : List String :=
  (t.rows.filter CommandInfo.isGeneric).map (·.name)

def schedulableNames (t : CommandTable) : List String :=
  (t.rows.filter (·.schedulable)).map (·.name)

/-- A command of one shape, with a schedule and calls. -/
def scheduled (name : String) (kind : CommandKind) (supportsHost : Bool) : CommandInfo :=
  ⟨name, kind, true, supportsHost, true, false⟩

def plain (name : String) (supportsHost : Bool) : CommandInfo :=
  ⟨name, .generic, false, supportsHost, false, false⟩

/-- The table of the backup tool. -/
def builtin : CommandTable := ⟨[
  scheduled "backup" .backup true,
  plain "cache" false,
  plain "cat" false,
  scheduled "check" .check false,
  scheduled "copy" .copy true,
  plain "diff" false,
  plain "dump" true,
  plain "find" true,
  scheduled "forget" .forget true,
  plain "generate" false,
  ⟨"init", .init, false, false, false, false⟩,
  plain "key" false,
  plain "list" false,
  plain "ls" true,
  plain "migrate" false,
  plain "mount" true,
  scheduled "prune" .prune false,
  plain "rebuild-index" false,
  plain "recover" false,
  plain "repair" false,
  plain "restore" true,
  plain "rewrite" false,
  plain "self-update" false,
  plain "snapshots" true,
  plain "stats" true,
  plain "tag" true,
  plain "unlock" false,
  plain "version" false,
  ⟨"retention", .retention, true, true, false, true⟩]⟩

end CommandTable

end BackupProfiles
