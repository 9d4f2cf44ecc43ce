import BackupProfiles.Section.Hooks
import BackupProfiles.Section.Timing

/-!
# The copy section

The repository that snapshots are copied to.
-/

namespace BackupProfiles

structure CopySection where
  creates : Bool
  repository : Secret
  repositoryFile : String
  passwordFile : Secret
  passwordCommand : Secret
  keyHint : Secret
  timing : Timing
  hooks : Hooks
  flags : Table FlagValue
  deriving DecidableEq, BEq

namespace CopySection

def shape : Shape where
  name := "CopySection"
  own := [
    ("initialize", Reader.switch.fault?),
    ("repository", Reader.secret.fault?),
    ("repository-file", Reader.text.fault?),
    ("password-file", Reader.secret.fault?),
    ("password-command", Reader.secret.fault?),
    ("key-hint", Reader.secret.fault?)]
  groups := [Timing.checks, Hooks.checks]

def ofEntries (es : Entries) : CopySection where
  creates := es.read "initialize" Reader.switch false
  repository := es.read "repository" Reader.secret ⟨""⟩
  repositoryFile := es.read "repository-file" Reader.text ""
  passwordFile := es.read "password-file" Reader.secret ⟨""⟩
  passwordCommand := es.read "password-command" Reader.secret ⟨""⟩
  keyHint := es.read "key-hint" Reader.secret ⟨""⟩
  timing := Timing.ofEntries es
  hooks := Hooks.ofEntries es
  flags := shape.flags es

def read : Reader CopySection := shape.readOpen ofEntries

def fields (c : CopySection) : Entries := [
    ("initialize", .bool c.creates),
    ("repository", Written.secret c.repository),
    ("repository-file", .string c.repositoryFile),
    ("password-file", Written.secret c.passwordFile),
    ("password-command", Written.secret c.passwordCommand),
    ("key-hint", Written.secret c.keyHint)]
  ++ c.timing.fields ++ c.hooks.fields

def toValue (c : CopySection) : Value := Written.record (c.fields ++ Written.flags c.flags)

end CopySection

end BackupProfiles
