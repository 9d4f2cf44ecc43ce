import BackupProfiles.Path.Text

/-!
# Files

A disk is a tree of folders and files. `Surroundings` is what a program sees of it: the tree, the
current folder and the home folder. A written path is looked up component by component; a component
that is not the first needs a folder before it.
-/

namespace BackupProfiles

inductive File where
  | plain (content : String)
  | folder (entries : List (String × File))
  deriving Repr, Inhabited

namespace File

def isFolder : File → Bool
  | folder _ => true
  | plain _ => false

def entries : File → List (String × File)
  | folder es => es
  | plain _ => []

def child? (f : File) (name : String) : Option File :=
  (f.entries.find? fun e => e.1 == name).map (·.2)

/-- The file under a list of names. -/
def at? : File → List String → Option File
  | f, [] => some f
  | f, name :: rest => (f.child? name).bind fun g => g.at? rest

/-- Replaces or adds an entry. -/
def replaceEntry (name : String) (file : File) : List (String × File) → List (String × File)
  | [] => [(name, file)]
  | e :: rest => if e.1 == name then (name, file) :: rest else e :: replaceEntry name file rest

/-- Puts a file under a list of names, with the folders on the way. A folder keeps its entries
when a folder is put in its place. -/
def put (file : File) : List String → File → File
  | [], old => if file.isFolder && old.isFolder then old else file
  | name :: rest, old =>
    folder (replaceEntry name (put file rest ((old.child? name).getD (folder []))) old.entries)

end File

/-- Why a file cannot be read. -/
inductive FileFault where
  | missing
  | notFolder
  | isFolder
  deriving DecidableEq, Repr

def FileFault.message : FileFault → String
  | missing => "No such file or directory (os error 2)"
  | notFolder => "Not a directory (os error 20)"
  | isFolder => "Is a directory (os error 21)"

structure Surroundings where
  /-- The current folder, an absolute path. -/
  here : String
  home? : Option String
  root : File
  deriving Inhabited

namespace Surroundings

/-- The names on the way from the root to an absolute place, the last first. -/
def namesOf (p : Path) : List String :=
  p.clean.steps.reverse.filterMap fun
    | .into name => some name
    | .up => none

/-- Follows components from a place given by its names, the last first. -/
def follow (root : File) (place : List String) : List (List Char) → Except FileFault File
  | [] =>
    match root.at? place.reverse with
    | some f => .ok f
    | none => .error .missing
  | component :: rest =>
    match root.at? place.reverse with
    | none => .error .missing
    | some (.plain _) => .error .notFolder
    | some (.folder _) =>
      match Path.step? component with
      | none => follow root place rest
      | some .up => follow root place.tail rest
      | some (.into name) => follow root (name :: place) rest

/-- The file a written path leads to. -/
def find (s : Surroundings) (path : String) : Except FileFault File :=
  if path.isEmpty then .error .missing
  else
    let start := if Path.isAbsoluteText path then [] else namesOf (Path.ofText s.here)
    follow s.root start (Text.splitChars '/' path.toList)

def find? (s : Surroundings) (path : String) : Option File := (s.find path).toOption

def isFolder (s : Surroundings) (path : String) : Bool := (s.find? path).any File.isFolder

def isFile (s : Surroundings) (path : String) : Bool := (s.find? path).any fun f => !f.isFolder

def contents (s : Surroundings) (path : String) : Except FileFault String :=
  match s.find path with
  | .ok (.plain content) => .ok content
  | .ok (.folder _) => .error .isFolder
  | .error e => .error e

/-- A written path as an absolute one. -/
def absolute (s : Surroundings) (path : String) : String := Path.anchored s.home? s.here path

end Surroundings

end BackupProfiles
