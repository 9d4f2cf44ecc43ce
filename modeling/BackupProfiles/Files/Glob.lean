import BackupProfiles.Files.Basic
import BackupProfiles.Files.Pattern

/-!
# Patterns of paths

`found?` follows the components of a pattern from the root or the current folder. A component
without signs is only checked for existence and is never matched; one with signs is matched against
the names in the folder, and against `.` and `..` when it starts with a dot. A double star goes down
any number of folders. `expand` lists the paths that a text stands for, in ascending order. What
comes out is written the way the pattern is, so a pattern that matches nothing is kept as it is.
-/

namespace BackupProfiles.Glob

/-- The characters that make a text a pattern. -/
def isSign (c : Char) : Bool := c == '*' || c == '?' || c == '['

def isPattern (text : String) : Bool := text.toList.any isSign

/-- The current folder, however it is written. -/
def isHere (path : String) : Bool :=
  match Text.splitChars '/' path.toList with
  | ['.'] :: rest => rest.all Path.isIdle
  | _ => false

/-- A name in a folder; names in the current folder stand alone. -/
def within (folder name : String) : String :=
  if isHere folder then name else Path.joinText folder name

mutual

/-- Everything in a folder at any depth: path, name, and whether it is a folder. -/
def descendants (folder : String) : File → List (String × String × Bool)
  | .plain _ => []
  | .folder entries => descendantsOf folder entries

def descendantsOf (folder : String) : List (String × File) → List (String × String × Bool)
  | [] => []
  | (name, file) :: rest =>
    (within folder name, name, file.isFolder) :: descendants (within folder name) file
      ++ descendantsOf folder rest

end

def children (s : Surroundings) (folder : String) : List (String × File) :=
  ((s.find? folder).map File.entries).getD []

def allBelow (s : Surroundings) (folder : String) : List (String × String × Bool) :=
  ((s.find? folder).map (descendants folder)).getD []

def fitsName (p : Pattern) (name : String) : Bool :=
  match p with
  | .deep => true
  | .name symbols => Pattern.fits symbols name.toList

/-- The next place after a component without signs, if it is there. -/
def enter (s : Surroundings) (folder : String) (name : List Char) : List String :=
  let text := String.ofList name
  let next := within folder text
  let there := if name == ['.'] || name == ['.', '.'] then s.isFolder folder
    else (s.find? next).isSome
  if there then [next] else []

/-- What a component with signs matches in a folder. -/
def matched (s : Surroundings) (folder : String) (symbols : List Symbol) : List String :=
  if s.isFolder folder then
    let named := (children s folder).filterMap fun (name, _) =>
      if Pattern.fits symbols name.toList then some (within folder name) else none
    let dots := if Pattern.startsWithDot symbols then
        [".", ".."].filter fun d => Pattern.fits symbols d.toList
      else []
    named ++ dots.map (Path.joinText folder)
  else []

/-- The paths that the components lead to from a folder. -/
def walk (s : Surroundings) : List Pattern → String → List String
  | [], folder => [folder]
  | [.deep], folder => (allBelow s folder).filterMap fun (path, _, isFolder) =>
      if isFolder then some path else none
  | .deep :: p :: rest, folder =>
    ((allBelow s folder).filter fun (_, name, _) => fitsName p name).flatMap fun (path, _, _) =>
      walk s rest path
  | .name symbols :: rest, folder =>
    match Pattern.literal? symbols with
    | some name => (enter s folder name).flatMap (walk s rest)
    | none => (matched s folder symbols).flatMap (walk s rest)

/-- Double stars that follow each other count once. -/
def collapse : List Pattern → List Pattern
  | .deep :: .deep :: rest => collapse (.deep :: rest)
  | p :: rest => p :: collapse rest
  | [] => []

/-- The components of a pattern after the root; a separator at the end opens no component. -/
def components (cs : List Char) : List (List Char) :=
  let parts := Text.splitChars '/' cs
  if parts.getLast? == some [] then parts.dropLast else parts

/-- The matches of a pattern, if it can be read. -/
def found? (s : Surroundings) (pattern : String) : Option (List String) :=
  let cs := pattern.toList
  let (start, body) := match cs with
    | '/' :: rest => ("/", rest)
    | _ => (".", cs)
  ((components body).mapM Pattern.read?).map fun patterns =>
    let paths := walk s (collapse patterns) start
    if cs.getLast? == some '/' then paths.filter s.isFolder else paths

/-- The paths that a text stands for, with the matches of a pattern as they are given. A text that
is no pattern stands for itself, and so does a pattern that cannot be read or has no matches. -/
def expandBy (found? : String → Option (List String)) (text : String) : List String :=
  if !isPattern text then [text]
  else match (found? text).getD [] with
    | [] => [text]
    | paths => paths.mergeSort

/-- The paths that a text stands for on a disk. -/
def expand (s : Surroundings) (text : String) : List String := expandBy (found? s) text

end BackupProfiles.Glob
