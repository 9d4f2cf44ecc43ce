import BackupProfiles.CommandLine.Arguments

/-!
# Commands

What can be asked for on the command line: lists and single profiles, the flags of a command, the
schedules of a profile, and the settings, files and groups of the configuration.
-/

namespace BackupProfiles

inductive OutputFormat where
  | text
  | json
  | yaml
  deriving DecidableEq, Repr

def OutputFormat.ofName? : String → Option OutputFormat
  | "text" => some .text
  | "json" => some .json
  | "yaml" => some .yaml
  | _ => none

/-- Whose name is taken for the host. -/
inductive HostChoice where
  | machine
  | named (name : String)
  | omitted
  deriving DecidableEq, Repr

/-- A question for the flags of a command. -/
structure FlagsRequest where
  profile : String
  command : String
  /-- The version to go by in place of the configured one. -/
  version? : Option String
  host : HostChoice
  /-- The flags that create the destination of a copy are meant. -/
  initializesCopy : Bool
  deriving DecidableEq, Repr

inductive Command where
  | profiles (format : OutputFormat)
  | profile (name : String) (format : OutputFormat)
  | flags (request : FlagsRequest)
  | schedules (profile : String) (format : OutputFormat)
  | settings (format : OutputFormat)
  | paths
  | groups (format : OutputFormat)
  deriving DecidableEq, Repr

/-- A command and the configuration file it is for, where one is given. -/
structure Invocation where
  file? : Option String
  command : Command
  deriving DecidableEq, Repr

namespace Invocation

def configOption : OptionShape := ⟨"config", some 'c', some fun value => !value.isEmpty⟩

def formatOption : OptionShape := ⟨"format", none, some fun v => (OutputFormat.ofName? v).isSome⟩

def anyText (name : String) : OptionShape := ⟨name, none, some fun _ => true⟩

def switch (name : String) : OptionShape := ⟨name, none, none⟩

/-- A command without commands of its own; every command takes the configuration file. -/
def leaf (name : String) (options : List OptionShape) (wordCount : Nat) : CommandShape :=
  .mk name (configOption :: options) wordCount []

def flagsOptions : List OptionShape :=
  [anyText "restic-version", anyText "host", switch "no-host", switch "copy-initialize"]

def profileShape : CommandShape :=
  .mk "profile" [configOption] 0 [
    leaf "list" [formatOption] 0,
    leaf "show" [formatOption] 1,
    leaf "flags" flagsOptions 2,
    leaf "schedules" [formatOption] 1]

def configShape : CommandShape :=
  .mk "config" [configOption] 0 [
    leaf "show" [formatOption] 0,
    leaf "paths" [] 0,
    leaf "groups" [formatOption] 0]

def shape : CommandShape := .mk "" [configOption] 0 [profileShape, configShape]

def formatOf (a : Arguments) (default : OutputFormat) : OutputFormat :=
  ((a.value? "format").bind OutputFormat.ofName?).getD default

/-- A host and the wish for none exclude each other. -/
def hostOf (a : Arguments) : Except Usage HostChoice :=
  match a.value? "host", a.has "no-host" with
  | some _, true => .error .wrong
  | some name, false => .ok (.named name)
  | none, true => .ok .omitted
  | none, false => .ok .machine

/-- The command of some arguments. -/
def commandOf (a : Arguments) : Except Usage Command :=
  match a.path, a.words with
  | ["profile", "list"], [] => .ok (.profiles (formatOf a .text))
  | ["profile", "show"], [name] => .ok (.profile name (formatOf a .yaml))
  | ["profile", "flags"], [profile, command] => do
    let host ← hostOf a
    return .flags ⟨profile, command, a.value? "restic-version", host, a.has "copy-initialize"⟩
  | ["profile", "schedules"], [name] => .ok (.schedules name (formatOf a .yaml))
  | ["config", "show"], [] => .ok (.settings (formatOf a .yaml))
  | ["config", "paths"], [] => .ok .paths
  | ["config", "groups"], [] => .ok (.groups (formatOf a .text))
  | _, _ => .error .wrong

/-- Reads the words of a command line, the name of the program left out. -/
def read (words : List String) : Except Usage Invocation := do
  let arguments ← shape.read words
  return ⟨arguments.value? "config", ← commandOf arguments⟩

end Invocation

end BackupProfiles
