import BackupProfiles.CommandLine.Outcome

/-!
# The program

Reads the command line, looks at the parts of the disk that the configuration can lead to, and
prints what comes of it.
-/

namespace BackupProfiles.Main

def usageText : String :=
  "resolve restic profiles into command line flags\n\n" ++
  "Usage: resticprofile [-c FILE] COMMAND\n\n" ++
  "Commands:\n" ++
  "  profile list [--format FORMAT]\n" ++
  "  profile show NAME [--format FORMAT]\n" ++
  "  profile flags NAME COMMAND [--restic-version VERSION] [--host HOST | --no-host]\n" ++
  "                [--copy-initialize]\n" ++
  "  profile schedules NAME [--format FORMAT]\n" ++
  "  config show [--format FORMAT]\n" ++
  "  config paths\n" ++
  "  config groups [--format FORMAT]\n\n" ++
  "A format is text, json or yaml.\n"

/-- Puts a file of the disk into the tree that stands for it; only some folders show what is in
them. -/
def see (s : Surroundings) (path : String) (withContent : Bool) : IO Surroundings := do
  let place := (← IO.currentDir) / path
  if !(← place.pathExists) then return s
  let names := (Surroundings.namesOf (Path.ofText (s.absolute path))).reverse
  let file ←
    if ← place.isDir then pure (File.folder [])
    else if withContent then (try File.plain <$> IO.FS.readFile place catch _ => pure (.plain ""))
    else pure (.plain "")
  return { s with root := File.put file names s.root }

/-- The names in a folder of the disk. -/
def namesIn (path : String) : IO (List String) := do
  let place := (← IO.currentDir) / path
  if ← place.isDir then
    try return (← place.readDir).toList.map (·.fileName) catch _ => return []
  else return []

/-- Sees what a pattern can lead to from a folder on. -/
partial def explore (s : Surroundings) (folder : String) : List Pattern → IO Surroundings
  | [] => see s folder false
  | p :: rest => do
    let mut s ← see s folder false
    match p with
    | .name symbols =>
      match Pattern.literal? symbols with
      | some name => explore s (Path.joinText folder (String.ofList name)) rest
      | none =>
        for name in ← namesIn folder do
          if Pattern.fits symbols name.toList then
            s ← explore s (Path.joinText folder name) rest
        return s
    | .deep =>
      s ← explore s folder rest
      for name in ← namesIn folder do
        s ← explore s (Path.joinText folder name) (.deep :: rest)
      return s

/-- Sees what a text with the signs of a pattern can lead to. -/
def explorePattern (s : Surroundings) (text : String) : IO Surroundings :=
  if !Glob.isPattern text then return s
  else match (Glob.components text.toList).mapM Pattern.read? with
    | some patterns => explore s (if Path.isAbsoluteText text then "/" else ".") patterns
    | none => return s

/-- The profile a command is about. -/
def profile? : Command → Option String
  | .profile name _ => some name
  | .flags request => some request.profile
  | .schedules name _ => some name
  | _ => none

/-- The sources of a profile as they are written, anchored but not expanded. -/
def patterns (s : Surroundings) (c : Config) (name : String) : List String :=
  match (c.resolve { s with root := .folder [] } name).result with
  | .ok p => (p.backup?.map (·.source)).getD []
  | .error _ => []

/-- The disk as far as a command can see it. -/
def surroundings (invocation : Invocation) : IO Surroundings := do
  let home? ← IO.getEnv "HOME"
  let mut s : Surroundings := ⟨toString (← IO.currentDir), home?, .folder []⟩
  for path in Config.candidates home? ++ invocation.file?.toList do
    s ← see s path true
  match Config.find? s invocation.file?, profile? invocation.command with
  | some file, some name =>
    match Config.load s file with
    | .ok c =>
      for text in patterns s c name do
        s ← explorePattern s text
      return s
    | .error _ => return s
  | _, _ => return s

/-- The name of this machine. -/
def machine? : IO (Option String) := do
  try return some (Text.trim (← IO.FS.readFile "/proc/sys/kernel/hostname"))
  catch _ => return none

/-- The causes behind a message, numbered where there are several. -/
def causeLines (causes : List String) : List String :=
  match causes with
  | [] => []
  | [cause] => ["", "Caused by:", "    " ++ cause]
  | _ => "" :: "Caused by:" :: causes.zipIdx.map fun (cause, i) =>
    "    " ++ toString i ++ ": " ++ cause

def printFailure (chain : List String) : IO Unit := do
  let err ← IO.getStderr
  err.putStrLn ("Error: " ++ chain.head?.getD "")
  for line in causeLines chain.tail do
    err.putStrLn line

/-- Prints an outcome and answers the exit code. -/
def finish : Outcome → IO UInt32
  | .usage .shown => do
    IO.print usageText
    return 0
  | .usage .wrong => do
    (← IO.getStderr).putStr usageText
    return 2
  | .noConfiguration => do
    printFailure
      ["no configuration file found (profiles.toml, profiles.yaml, profiles.json)"]
    return 1
  | .unloadable path why => do
    printFailure (("cannot load configuration " ++ Text.quotedPath path) :: why.chain)
    return 1
  | .reported report => do
    IO.print report.output
    for line in report.warnings do
      (← IO.getStderr).putStrLn line
    match report.failure? with
    | some why =>
      printFailure why.chain
      return 1
    | none => return 0

def run (words : List String) : IO UInt32 := do
  match Invocation.read words with
  | .error why => finish (.usage why)
  | .ok invocation =>
    finish (Outcome.ofInvocation (← surroundings invocation) (← machine?) invocation)

end BackupProfiles.Main

def main (words : List String) : IO UInt32 := BackupProfiles.Main.run words
