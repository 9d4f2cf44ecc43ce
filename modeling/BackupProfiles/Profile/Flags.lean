import BackupProfiles.Flags
import BackupProfiles.Profile.Basic

/-!
# Flags of the commands

The flags that a profile gives to a command of the backup tool: the flags of the profile first, then
those of the section, which win. A command that reads from one repository and writes to another
names the second one with flags of its own: until a release they end in `2`, from it on they start
with `from-`, and then the repository of the profile counts as the source of a copy.
-/

namespace BackupProfiles

/-- The settings that name a repository and give access to it. -/
structure RepositoryAccess where
  keyHint : String
  repository : String
  repositoryFile : String
  passwordFile : String
  passwordCommand : String
  deriving DecidableEq

namespace RepositoryAccess

/-- The names of the flags, in their order. -/
def names : List String :=
  ["key-hint", "repo", "repository-file", "password-file", "password-command"]

def values (a : RepositoryAccess) : List String :=
  [a.keyHint, a.repository, a.repositoryFile, a.passwordFile, a.passwordCommand]

/-- Adds the settings under the names that `rename` gives to their flags. -/
def addTo (rename : String → String) (a : RepositoryAccess) (flags : Flags) : Flags :=
  (names.zip a.values).foldl (fun flags e => flags.addText (rename e.1) e.2) flags

end RepositoryAccess

/-- The name of a repository flag for the second repository. -/
def secondaryName (usesSourceFlags : Bool) (name : String) : String :=
  if usesSourceFlags then "from-" ++ name else name ++ "2"

def CopySection.access (c : CopySection) : RepositoryAccess :=
  ⟨c.keyHint.reveal, c.repository.reveal, c.repositoryFile, c.passwordFile.reveal,
    c.passwordCommand.reveal⟩

def InitSection.access (i : InitSection) : RepositoryAccess :=
  ⟨i.fromKeyHint.reveal, i.fromRepository.reveal, i.fromRepositoryFile, i.fromPasswordFile.reveal,
    i.fromPasswordCommand.reveal⟩

def Runtime.usesSourceFlags (rt : Runtime) : Bool := ToolVersion.usesSourceFlags rt.version?

namespace Flags

/-- Adds the flags of a section in the order of their names. -/
def addTable (f : Flags) (t : Table FlagValue) : Flags :=
  t.entries.foldl (fun f e => f.addValue e.1 e.2) f

/-- Adds a flag of a section. A `host` flag that is on gets the name of the host, where the command
takes one. -/
def addSectionFlag (rt : Runtime) (takesHost : Bool) (f : Flags) (name : String)
    (value : FlagValue) : Flags :=
  if takesHost && name == "host" && value == .switch true then f.add name rt.host?.toList
  else f.addValue name value

/-- Adds the flags of the section of a command. -/
def addSection (rt : Runtime) (f : Flags) (command : String) (t : Table FlagValue) : Flags :=
  t.entries.foldl (fun f e => f.addSectionFlag rt (rt.table.supportsHost command) e.1 e.2) f

/-- Renames the flags of a repository to those of the second one. -/
def renameRepository (f : Flags) (usesSourceFlags : Bool) : Flags :=
  RepositoryAccess.names.foldl (fun f name => f.rename name (secondaryName usesSourceFlags name)) f

def addVerbosity (f : Flags) : Nat → Flags
  | 0 => f
  | 1 => f.add "verbose" []
  | level => f.add "verbose" [Text.natText level]

end Flags

namespace Profile

def access (p : Profile) : RepositoryAccess :=
  ⟨p.keyHint.reveal, p.repository.reveal, p.repositoryFile, p.passwordFile.reveal,
    p.passwordCommand.reveal⟩

/-- The flags that every command gets. -/
def commonFlags (p : Profile) : Flags :=
  let files := ((Flags.empty.addText "cache-dir" p.cacheDir).addText "cacert" p.caCert).addText
    "tls-client-cert" p.tlsClientCert
  (((p.access.addTo id files).addSwitch "quiet" p.quiet).addVerbosity p.verbose).addTable p.flags

def addBackupFlags (rt : Runtime) (command : String) (flags : Flags) (b : BackupSection) : Flags :=
  let flags := flags.addSwitch "stdin" b.usesStdin
  let flags := flags.addList "exclude" b.exclude
  let flags := flags.addList "iexclude" b.iexclude
  let flags := flags.addList "exclude-file" b.excludeFile
  let flags := flags.addList "files-from" b.filesFrom
  let flags := flags.addList "tag" b.tag
  flags.addSection rt command b.flags

/-- Once sources have flags of their own, the repository of the profile is the source and that of
the section the destination; before, the destination is the second repository. -/
def addCopyFlags (rt : Runtime) (flags : Flags) (c : CopySection) : Flags :=
  let flags :=
    if rt.usesSourceFlags then c.access.addTo id (flags.renameRepository true)
    else c.access.addTo (secondaryName false) flags
  flags.addSection rt "copy" c.flags

def addInitFlags (rt : Runtime) (flags : Flags) (i : InitSection) : Flags :=
  let flags := i.access.addTo (secondaryName rt.usesSourceFlags) flags
  let flags := flags.addSwitch "copy-chunker-params" i.copiesChunkerParams
  flags.addSection rt "init" i.flags

/-- The flags that create the destination of a copy, with the parameters of the profile's own
repository. -/
def copyInitFlags? (p : Profile) (rt : Runtime) : Option Flags :=
  p.copy?.map fun c =>
    let flags := (c.access.addTo id Flags.empty).addSection rt "copy" c.flags
    (flags.extend (p.commonFlags.renameRepository rt.usesSourceFlags)).add "copy-chunker-params" []

end Profile

end BackupProfiles
