/-!
# Arguments of a command line

A command has options, a number of words, or commands of its own; `CommandShape` is that as data.
`CommandShape.read` sorts the words behind a command by its shape. A value may stand in its own word
behind the option, and then may not look like an option itself. Two dashes end the options. Asking
for help or for the version ends the reading, unless something was wrong before.
-/

namespace BackupProfiles

/-- An option with a long name, and a letter where it has a short one. -/
structure OptionShape where
  name : String
  letter? : Option Char
  /-- The values the option takes; none for a switch. -/
  accepts? : Option (String → Bool)

inductive CommandShape where
  | mk (name : String) (options : List OptionShape) (wordCount : Nat) (commands : List CommandShape)

/-- Why a command line is not run. -/
inductive Usage where
  /-- Help or the version was asked for. -/
  | shown
  | wrong
  deriving DecidableEq, Repr

def Usage.exitCode : Usage → Nat
  | shown => 0
  | wrong => 2

/-- The parts of a command line. -/
structure Arguments where
  /-- The names of the command and of the commands it belongs to, the outermost first. -/
  path : List String
  /-- The options with their values, those of the innermost command first. A switch has no value. -/
  options : List (String × String)
  words : List String
  deriving DecidableEq, Repr

namespace Arguments

/-- The value of an option; the innermost command that gives it decides. -/
def value? (a : Arguments) (name : String) : Option String := a.options.lookup name

def has (a : Arguments) (name : String) : Bool := (a.value? name).isSome

end Arguments

/-- An option that is not settled, with its value once it is there. -/
structure Pending where
  option : OptionShape
  value? : Option String

/-- What was read behind a command. -/
structure Reading where
  options : List (String × String)
  words : List String
  pending? : Option Pending
  /-- Two dashes were read, and all that follows is words. -/
  onlyWords : Bool

namespace Reading

def start : Reading := ⟨[], [], none, false⟩

/-- Whether the next word is the value of an option. -/
def isWaiting (r : Reading) : Bool := r.pending?.any fun p => p.value?.isNone

/-- Adds an option with an accepted value; no option is given twice. -/
def add (r : Reading) (option : OptionShape) (value : String) : Except Usage Reading :=
  if (r.options.lookup option.name).isSome then .error .wrong
  else if (option.accepts?.map (· value)).getD true then
    .ok { r with options := (option.name, value) :: r.options }
  else .error .wrong

/-- Adds the pending option, which needs its value by now. -/
def settle (r : Reading) : Except Usage Reading :=
  match r.pending? with
  | none => .ok r
  | some ⟨_, none⟩ => .error .wrong
  | some ⟨option, some value⟩ => { r with pending? := none }.add option value

def addWord (r : Reading) (wordCount : Nat) (word : String) : Except Usage Reading :=
  if r.words.length < wordCount then
    r.settle.map fun r => { r with words := r.words ++ [word] }
  else .error .wrong

/-- An option with the value written in the same word, if there is one. -/
def addOption (r : Reading) (option : OptionShape) (value? : Option String) :
    Except Usage Reading := do
  match option.accepts?, value? with
  | none, some _ => .error .wrong
  | none, none => (← r.settle).add option ""
  | some _, some value => (← r.settle).add option value
  | some _, none => return { ← r.settle with pending? := some ⟨option, none⟩ }

/-- The end of what can be read, at a question for help. -/
def askHelp (r : Reading) : Except Usage Reading := r.settle.bind fun _ => .error .shown

/-- A word that starts with two dashes: a name and maybe a value behind an equals sign. -/
def addLong (r : Reading) (options : List OptionShape) (cs : List Char) : Except Usage Reading :=
  let name := String.ofList (cs.takeWhile (· != '='))
  let value? := match cs.dropWhile (· != '=') with
    | [] => none
    | _ :: value => some (String.ofList value)
  if name == "help" || name == "version" then
    if value?.isSome then .error .wrong else r.askHelp
  else
    match options.find? fun option => option.name == name with
    | some option => r.addOption option value?
    | none => .error .wrong

/-- A word that starts with one dash: a letter and maybe a value, with or without an equals sign. -/
def addShort (r : Reading) (options : List OptionShape) (letter : Char) (rest : List Char) :
    Except Usage Reading :=
  if letter == 'h' || letter == 'V' then r.askHelp
  else
    match options.find? fun option => option.letter? == some letter with
    | none => .error .wrong
    | some option =>
      match rest with
      | [] => r.addOption option none
      | '=' :: value => r.addOption option (some (String.ofList value))
      | value => r.addOption option (some (String.ofList value))

/-- A word that names no command. -/
def addArgument (r : Reading) (options : List OptionShape) (wordCount : Nat) (word : String) :
    Except Usage Reading :=
  if r.onlyWords then r.addWord wordCount word
  else
    match word.toList with
    | ['-', '-'] => .ok { r with onlyWords := true }
    | '-' :: '-' :: cs => r.addLong options cs
    | '-' :: letter :: rest => r.addShort options letter rest
    | _ =>
      match r.pending? with
      | some ⟨option, none⟩ => .ok { r with pending? := some ⟨option, some word⟩ }
      | _ => r.addWord wordCount word

end Reading

namespace CommandShape

def name : CommandShape → String
  | mk name _ _ _ => name

def options : CommandShape → List OptionShape
  | mk _ options _ _ => options

def wordCount : CommandShape → Nat
  | mk _ _ wordCount _ => wordCount

def commands : CommandShape → List CommandShape
  | mk _ _ _ commands => commands

def command? (shape : CommandShape) (name : String) : Option CommandShape :=
  shape.commands.find? fun command => command.name == name

/-- Whether some words name a command that help can be shown for. Help is a command itself wherever
there are others. -/
def helps (shape : CommandShape) : List String → Bool
  | [] => true
  | word :: rest =>
    match shape.command? word with
    | some command => command.helps rest
    | none => word == "help" && !shape.commands.isEmpty && rest.isEmpty

/-- Reads the words behind a command; `r` holds what was read of them. -/
def readFrom (shape : CommandShape) (r : Reading) : List String → Except Usage Arguments
  | [] => do
    let r ← r.settle
    if shape.commands.isEmpty && r.words.length == shape.wordCount then
      .ok ⟨[], r.options, r.words⟩
    else .error .wrong
  | word :: rest =>
    let isWord := r.onlyWords || r.isWaiting
    match (if isWord then none else shape.command? word) with
    | some command => do
      let inner ← command.readFrom .start rest
      let r ← r.settle
      .ok { inner with path := command.name :: inner.path, options := inner.options ++ r.options }
    | none =>
      if !isWord && word == "help" && !shape.commands.isEmpty then
        .error (if shape.helps rest then .shown else .wrong)
      else do
        let r ← r.addArgument shape.options shape.wordCount word
        shape.readFrom r rest

def read (shape : CommandShape) (words : List String) : Except Usage Arguments :=
  shape.readFrom .start words

end CommandShape

end BackupProfiles
