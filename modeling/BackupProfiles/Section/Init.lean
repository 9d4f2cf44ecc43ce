import BackupProfiles.Section.Written

/-!
# The init section

The repository whose parameters a new repository takes over.
-/

namespace BackupProfiles

structure InitSection where
  fromRepository : Secret
  fromRepositoryFile : String
  fromPasswordFile : Secret
  fromPasswordCommand : Secret
  fromKeyHint : Secret
  copiesChunkerParams : Bool
  flags : Table FlagValue
  deriving DecidableEq, BEq

namespace InitSection

def shape : Shape where
  name := "InitSection"
  own := [
    ("from-repository", Reader.secret.fault?),
    ("from-repository-file", Reader.text.fault?),
    ("from-password-file", Reader.secret.fault?),
    ("from-password-command", Reader.secret.fault?),
    ("from-key-hint", Reader.secret.fault?),
    ("copy-chunker-params", Reader.switch.fault?)]
  groups := []

def ofEntries (es : Entries) : InitSection where
  fromRepository := es.read "from-repository" Reader.secret ⟨""⟩
  fromRepositoryFile := es.read "from-repository-file" Reader.text ""
  fromPasswordFile := es.read "from-password-file" Reader.secret ⟨""⟩
  fromPasswordCommand := es.read "from-password-command" Reader.secret ⟨""⟩
  fromKeyHint := es.read "from-key-hint" Reader.secret ⟨""⟩
  copiesChunkerParams := es.read "copy-chunker-params" Reader.switch false
  flags := shape.flags es

def read : Reader InitSection := shape.readOpen ofEntries

def fields (i : InitSection) : Entries := [
  ("from-repository", Written.secret i.fromRepository),
  ("from-repository-file", .string i.fromRepositoryFile),
  ("from-password-file", Written.secret i.fromPasswordFile),
  ("from-password-command", Written.secret i.fromPasswordCommand),
  ("from-key-hint", Written.secret i.fromKeyHint),
  ("copy-chunker-params", .bool i.copiesChunkerParams)]

def toValue (i : InitSection) : Value := Written.record (i.fields ++ Written.flags i.flags)

end InitSection

end BackupProfiles
