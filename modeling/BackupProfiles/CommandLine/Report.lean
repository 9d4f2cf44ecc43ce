import BackupProfiles.CommandLine.Command
import BackupProfiles.Config
import BackupProfiles.Json.Write
import BackupProfiles.Profile.Retention
import BackupProfiles.Yaml.Write

/-!
# Reports

What a command prints, what it warns of, and why it fails. The issues found on the way are disclosed
as warnings whether it fails or not.
-/

namespace BackupProfiles

/-- Why a command fails. -/
inductive Failure where
  | config (why : ConfigError)
  /-- The profile cannot be resolved. -/
  | profile (name : String) (why : ConfigError)
  | version (text : String)
  | noCopySection (profile : String)
  | noHostName
  deriving DecidableEq, Repr

/-- The message of an error and of the reason behind it, where there is one. -/
def ConfigError.chain (e : ConfigError) : List String :=
  match e with
  | .unreadable _ why => e.message :: why.message?.toList
  | _ => [e.message]

/-- The messages of a failure, the outermost first. -/
def Failure.chain : Failure → List String
  | .config why => why.chain
  | .profile name why => ("cannot load profile '" ++ name ++ "'") :: why.chain
  | .version text => ["invalid restic version", (ConfigError.invalidVersion text).message]
  | .noCopySection name => ["profile '" ++ name ++ "' has no copy section"]
  | .noHostName => ["cannot read the host name"]

/-- What a command comes to: the text it prints, and what it found on the way. -/
structure Run where
  result : Except Failure String
  warnings : List String := []
  failed : List FoundIssue := []
  changed : List PathChange := []

namespace Run

/-- A value in a format; texts are written as YAML. -/
def encoded (v : Value) : OutputFormat → String
  | .json => Json.write v ++ "\n"
  | .text | .yaml => Yaml.write v ++ "\n"

def lines (texts : List String) : String := String.join (texts.map (· ++ "\n"))

def ofExcept (result : Except ConfigError String) : Run where
  result := match result with
    | .ok text => .ok text
    | .error why => .error (.config why)

def summaryValue (s : ProfileSummary) : Value :=
  Written.record [
    ("description", .string s.description),
    ("sections", Written.texts s.sections)]

def summaryLines (name : String) (s : ProfileSummary) : List String :=
  (if s.description.isEmpty then name else name ++ ": " ++ s.description)
    :: (if s.sections.isEmpty then [] else ["  (" ++ ", ".intercalate s.sections ++ ")"])

/-- The profiles with their descriptions and sections. -/
def profiles (c : Config) (format : OutputFormat) : Run :=
  let summaries := c.profileSummaries
  ⟨.ok (match format with
    | .text => lines (summaries.entries.flatMap fun e => summaryLines e.1 e.2)
    | _ => encoded (Written.table summaryValue summaries) format), [], [], []⟩

/-- What is done with a profile once it is resolved. -/
def withProfile (s : Surroundings) (c : Config) (name : String) (next : Profile → Run) : Run :=
  let resolved := c.resolve s name
  match resolved.result with
  | .error why => { result := .error (.profile name why), failed := resolved.issues }
  | .ok p => { next p with failed := resolved.issues }

def profile (s : Surroundings) (c : Config) (name : String) (format : OutputFormat) : Run :=
  withProfile s c name fun p => { result := .ok (encoded p.shown format) }

/-- The version that flags depend on, as a text. -/
def versionText (c : Config) (request : FlagsRequest) : Except ConfigError String :=
  match request.version? with
  | some text => .ok text
  | none => c.global.map (·.toolVersion)

/-- The name of the host, nothing inside if none is to be given. -/
def hostName? (machine? : Option String) : HostChoice → Option (Option String)
  | .omitted => some none
  | .named name => some (some name)
  | .machine => machine?.map some

/-- What flags depend on besides the profile. -/
def runtime (c : Config) (machine? : Option String) (request : FlagsRequest) :
    Except Failure Runtime :=
  match versionText c request with
  | .error why => .error (.config why)
  | .ok text =>
    match c.runtime.setVersion? text, hostName? machine? request.host with
    | none, _ => .error (.version text)
    | some _, none => .error .noHostName
    | some rt, some none => .ok rt
    | some rt, some (some host) => .ok (rt.setHost host)

/-- The flags of a command on one line; a backup has its sources behind them. -/
def flagsOf (s : Surroundings) (rt : Runtime) (p : Profile) (request : FlagsRequest) : Run :=
  if request.initializesCopy then
    match p.copyInitFlags? rt with
    | some flags => { result := .ok (lines [" ".intercalate flags.arguments]) }
    | none => { result := .error (.noCopySection request.profile) }
  else
    let flags := (p.commandFlags s rt request.command).arguments
    let sources := if request.command == "backup" then p.backupPaths else []
    { result := .ok (lines [" ".intercalate (flags ++ sources)])
      changed := p.commandChanges s rt request.command }

def flags (s : Surroundings) (machine? : Option String) (c : Config) (request : FlagsRequest) :
    Run :=
  withProfile s c request.profile fun p =>
    match runtime c machine? request with
    | .error why => { result := .error why }
    | .ok rt => flagsOf s rt p request

/-- The jobs of a profile and those of the declared schedules that name it. -/
def schedules (s : Surroundings) (c : Config) (name : String) (format : OutputFormat) : Run :=
  withProfile s c name fun p =>
    let deprecated :=
      if p.schedulesRetention then
        ["profile '" ++ name
          ++ "': scheduling the retention section is deprecated, use forget instead"]
      else []
    let jobs := (c.declaredJobs name).map fun declared => p.jobs c.runtime ++ declared
    { ofExcept (jobs.map fun jobs => encoded (.list (jobs.map Job.toValue)) format) with
      warnings := deprecated }

def settings (c : Config) (format : OutputFormat) : Run :=
  ofExcept (c.global.map fun g => encoded g.toValue format)

def paths (c : Config) : Run :=
  ⟨.ok (lines [
    "config: " ++ Text.quotedPath c.file,
    "root: " ++ Text.quotedPath c.rootFolder,
    "version: " ++ c.layout.text]), [], [], []⟩

def groupLines (name : String) (g : Group) : List String :=
  (name ++ ": " ++ ", ".intercalate g.profiles)
    :: (if g.description.isEmpty then [] else ["  " ++ g.description])

def groups (c : Config) (format : OutputFormat) : Run :=
  ofExcept (c.groups.map fun groups =>
    match format with
    | .text => lines (groups.entries.flatMap fun e => groupLines e.1 e.2)
    | _ => encoded (Written.table Group.toValue groups) format)

def ofCommand (s : Surroundings) (machine? : Option String) (c : Config) : Command → Run
  | .profiles format => profiles c format
  | .profile name format => profile s c name format
  | .flags request => flags s machine? c request
  | .schedules name format => schedules s c name format
  | .settings format => settings c format
  | .paths => paths c
  | .groups format => groups c format

def issues (run : Run) : Issues := (Issues.empty.failAll run.failed).changeAll run.changed

end Run

/-- What a command leaves behind. -/
structure Report where
  output : String
  /-- The lines it warns with, in their order. -/
  warnings : List String
  /-- The issues that are not disclosed yet. -/
  issues : Issues
  failure? : Option Failure

namespace Report

/-- A command that fails prints nothing; its issues are disclosed all the same. -/
def ofRun (run : Run) : Report :=
  let (disclosed, issues) := run.issues.disclose
  let warnings := run.warnings ++ disclosed.lines
  match run.result with
  | .ok output => ⟨output, warnings, issues, none⟩
  | .error why => ⟨"", warnings, issues, some why⟩

/-- Runs a command on a configuration. `machine?` is the name of this machine, if it has one. -/
def ofCommand (s : Surroundings) (machine? : Option String) (c : Config) (command : Command) :
    Report :=
  ofRun (Run.ofCommand s machine? c command)

end Report

end BackupProfiles
