import BackupProfiles.Files.Basic
import BackupProfiles.Profile.Flags

/-!
# Flags of the retention section

The paths and tags that select snapshots default to those of the backup section. Paths are made
absolute, as the backup tool stores them; `retentionChanges` lists the ones that came out different
from the way they are written.
-/

namespace BackupProfiles

/-- A path that came out different: how it is described, and the paths it became. -/
abbrev PathChange := String × List String

namespace Profile

/-- The sources of the backup section, each with the paths it stands for. -/
def sources (p : Profile) : List ExpandedSource :=
  match p.backup? with
  | none => []
  | some b =>
    match b.expansion? with
    | some found => found
    | none => b.source.map fun pattern => ⟨pattern, [pattern]⟩

def absoluteSources (s : Surroundings) (p : Profile) : List ExpandedSource :=
  p.sources.map fun e => ⟨e.pattern, e.paths.map s.absolute⟩

/-- The paths of the retention section, none when no path is to be given. -/
def retentionPaths? (s : Surroundings) (p : Profile) (r : RetentionSection) :
    Option (List String) :=
  match r.path with
  | .unset | .fromBackup => some ((p.absoluteSources s).flatMap (·.paths))
  | .values paths => some (paths.map s.absolute)
  | .disabled => none

def backupTags (p : Profile) : List String := p.backup?.elim [] (·.tag)

/-- The tags of the retention section. Left unset, they are those of the backup section in a nested
layout, and none in a flat one. -/
def retentionTags? (rt : Runtime) (p : Profile) (r : RetentionSection) : Option (List String) :=
  match r.tag with
  | .fromBackup => some p.backupTags
  | .unset => if rt.layout = .nested then some p.backupTags else none
  | .values tags => some tags
  | .disabled => none

def addListWhere (flags : Flags) (name : String) : Option (List String) → Flags
  | some items => flags.addList name items
  | none => flags

/-- The flags of the retention section. -/
def retentionFlags (s : Surroundings) (rt : Runtime) (p : Profile) : Flags :=
  match p.retention? with
  | none => p.commonFlags
  | some r =>
    let flags := addListWhere p.commonFlags "path" (p.retentionPaths? s r)
    let flags := addListWhere flags "tag" (p.retentionTags? rt r)
    flags.addSection rt "retention" r.flags

/-- The paths of the retention section that are not as they are written. -/
def retentionChanges (s : Surroundings) (p : Profile) : List PathChange :=
  match p.retention? with
  | none => []
  | some r =>
    match r.path with
    | .unset | .fromBackup =>
      ((p.absoluteSources s).filter fun e => e.paths ≠ [e.pattern]).map fun e =>
        ("path (from source) \"" ++ e.pattern ++ "\"", e.paths)
    | .values paths =>
      (paths.filter fun path => s.absolute path ≠ path).map fun path =>
        ("path \"" ++ path ++ "\"", [s.absolute path])
    | .disabled => []

/-- The flags of a command. A command that the table does not have only gets the common ones. -/
def commandFlags (s : Surroundings) (rt : Runtime) (p : Profile) (command : String) : Flags :=
  let common := p.commonFlags
  match rt.table.kindOf? command with
  | some .retention => p.retentionFlags s rt
  | some .backup => p.backup?.elim common (addBackupFlags rt command common)
  | some .check => p.check?.elim common fun c => common.addSection rt command c.flags
  | some .prune => p.prune?.elim common fun c => common.addSection rt command c.flags
  | some .forget => p.forget?.elim common fun c => common.addSection rt command c.flags
  | some .copy => p.copy?.elim common (addCopyFlags rt common)
  | some .init => p.init?.elim common (addInitFlags rt common)
  | some .generic => (p.generic? command).elim common fun g => common.addSection rt command g.flags
  | none => common

/-- The changed paths that come with the flags of a command. -/
def commandChanges (s : Surroundings) (rt : Runtime) (p : Profile) (command : String) :
    List PathChange :=
  match rt.table.kindOf? command with
  | some .retention => p.retentionChanges s
  | _ => []

end Profile

end BackupProfiles
