import BackupProfiles.CommandLine.Report

/-!
# Outcomes

From the words of a command line to what comes of them: the words are read, the configuration file
is found and loaded, and the command runs on it.
-/

namespace BackupProfiles

inductive Outcome where
  | usage (why : Usage)
  /-- No file is given, and none is where one is looked for. -/
  | noConfiguration
  | unloadable (path : String) (why : ConfigError)
  | reported (report : Report)

namespace Outcome

def ofInvocation (s : Surroundings) (machine? : Option String) (invocation : Invocation) : Outcome :=
  match Config.find? s invocation.file? with
  | none => noConfiguration
  | some path =>
    match Config.load s path with
    | .error why => unloadable path why
    | .ok c => reported (Report.ofCommand s machine? c invocation.command)

def ofWords (s : Surroundings) (machine? : Option String) (words : List String) : Outcome :=
  match Invocation.read words with
  | .error why => usage why
  | .ok invocation => ofInvocation s machine? invocation

end Outcome

end BackupProfiles
