import BackupProfiles.Path.Text
import BackupProfiles.Profile.Basic

/-!
# Anchoring file settings

Files in a configuration are seen from the folder of the configuration file. `Profile.anchor` does
so for every file setting of a profile; repositories, hosts and backup sources stay as they are.
-/

namespace BackupProfiles

/-- How a file setting is rewritten. -/
abbrev Anchoring := String → String

/-- The flags whose texts are files. -/
def fileFlags : List String := ["password-file", "repository-file"]

def FlagValue.mapText (f : Anchoring) : FlagValue → FlagValue
  | .text s => .text (f s)
  | v => v

def Secret.map (f : Anchoring) (s : Secret) : Secret := ⟨f s.reveal⟩

def anchorFlags (f : Anchoring) (flags : Table FlagValue) : Table FlagValue :=
  flags.mapEntries fun name v => if fileFlags.contains name then v.mapText f else v

def Call.anchor (f : Anchoring) (c : Call) : Call := { c with bodyTemplate := f c.bodyTemplate }

def Hooks.anchor (f : Anchoring) (h : Hooks) : Hooks := h.map (Call.anchor f)

def BackupSection.anchor (f : Anchoring) (b : BackupSection) : BackupSection :=
  { b with
    excludeFile := b.excludeFile.map f
    filesFrom := b.filesFrom.map f
    hooks := b.hooks.anchor f
    flags := anchorFlags f b.flags }

def RetentionSection.anchor (f : Anchoring) (r : RetentionSection) : RetentionSection :=
  { r with flags := anchorFlags f r.flags }

def ScheduledSection.anchor (f : Anchoring) (s : ScheduledSection) : ScheduledSection :=
  { s with hooks := s.hooks.anchor f, flags := anchorFlags f s.flags }

def CopySection.anchor (f : Anchoring) (c : CopySection) : CopySection :=
  { c with
    repositoryFile := f c.repositoryFile
    passwordFile := c.passwordFile.map f
    hooks := c.hooks.anchor f
    flags := anchorFlags f c.flags }

def InitSection.anchor (f : Anchoring) (i : InitSection) : InitSection :=
  { i with
    fromRepositoryFile := f i.fromRepositoryFile
    fromPasswordFile := i.fromPasswordFile.map f
    flags := anchorFlags f i.flags }

def GenericSection.anchor (f : Anchoring) (g : GenericSection) : GenericSection :=
  { g with flags := anchorFlags f g.flags }

def Profile.anchorWith (f : Anchoring) (p : Profile) : Profile :=
  { p with
    lock := f p.lock
    statusFile := f p.statusFile
    repositoryFile := f p.repositoryFile
    caCert := f p.caCert
    tlsClientCert := f p.tlsClientCert
    passwordFile := p.passwordFile.map f
    backup? := p.backup?.map (·.anchor f)
    retention? := p.retention?.map (·.anchor f)
    check? := p.check?.map (·.anchor f)
    prune? := p.prune?.map (·.anchor f)
    forget? := p.forget?.map (·.anchor f)
    copy? := p.copy?.map (·.anchor f)
    init? := p.init?.map (·.anchor f)
    generic := p.generic.map fun g? => g?.map (·.anchor f)
    flags := anchorFlags f p.flags }

/-- Makes every file setting relative to a root. -/
def Profile.anchor (home? : Option String) (root : String) (p : Profile) : Profile :=
  p.anchorWith (Path.anchored home? root)

/-- Replaces the patterns of the backup sources by what they stand for. -/
def Profile.expandSources (find : String → List String) (p : Profile) : Profile :=
  { p with backup? := p.backup?.map (·.expand find) }

end BackupProfiles
