import BackupProfiles.Toml.Scalar
import BackupProfiles.Toml.Tree

/-!
# Reading TOML

`read?` takes a whole text and answers its root table. Lines are read one after the other into a
tree of tables, along with the path of the last header.
-/

namespace BackupProfiles.Toml

/-- A table written in braces, from its values with their keys. -/
def inlineTable (pairs : List (List String × Value)) : Option Value :=
  let add := fun (es : Entries) (pair : List String × Value) =>
    match pair.1.reverse with
    | [] => none
    | key :: path => Tree.addValue path.reverse key pair.2 .stated es
  (pairs.foldlM add []).map fun es => .mapping (Tree.entriesToMapping es)

mutual

/-- A value; the first argument bounds the number of steps, `depth` the nesting. -/
def readValue? : Nat → Nat → List Char → Read Value
  | 0, _, _ => none
  | steps + 1, depth, cs =>
    match cs with
    | '[' :: rest =>
      match depth with
      | 0 => none
      | depth + 1 =>
        (readItems? steps depth (skipLines rest.length rest)).map fun (items, rest) =>
          (.list items, rest)
    | '\x7b' :: rest =>
      match depth, skipBlanks rest with
      | 0, _ => none
      | _ + 1, '\x7d' :: rest => some (.mapping [], rest)
      | depth + 1, rest =>
        (readPairs? steps depth rest).bind fun (pairs, rest) =>
          (inlineTable pairs).map (·, rest)
    | _ => readScalar? cs

/-- The items of a list up to its bracket; a comma may follow the last one. -/
def readItems? : Nat → Nat → List Char → Read (List Value)
  | 0, _, _ => none
  | steps + 1, depth, cs =>
    match cs with
    | ']' :: rest => some ([], rest)
    | _ =>
      (readValue? steps depth cs).bind fun (item, rest) =>
        match skipLines rest.length rest with
        | ',' :: rest =>
          (readItems? steps depth (skipLines rest.length rest)).map fun (items, rest) =>
            (item :: items, rest)
        | ']' :: rest => some ([item], rest)
        | _ => none

/-- The values of a table in braces with their keys, on one line. -/
def readPairs? : Nat → Nat → List Char → Read (List (List String × Value))
  | 0, _, _ => none
  | steps + 1, depth, cs =>
    match readKey? (depthBound - 1) cs with
    | some (key, '=' :: rest) =>
      (readValue? steps depth (skipBlanks rest)).bind fun (v, rest) =>
        match skipBlanks rest with
        | ',' :: rest =>
          (readPairs? steps depth rest).map fun (pairs, rest) => ((key, v) :: pairs, rest)
        | '\x7d' :: rest => some ([(key, v)], rest)
        | _ => none
    | _ => none

end

/-- The tables read so far, with the path of the last header. -/
structure State where
  root : Entries
  header : List String

/-- Changes the table of the last header. -/
def State.inHeader (s : State) (change : Opening → Entries → Option Entries) : Option State :=
  (Tree.modify change .passed s.header .stated s.root).map fun root => { s with root := root }

/-- Opens the table of a header. -/
def State.enter (s : State) (path : List String)
    (open_ : String → Opening → Entries → Option Entries) : Option State :=
  match path.reverse with
  | [] => none
  | key :: way =>
    (Tree.modify (open_ key) .passed way.reverse .stated s.root).map fun root => ⟨root, path⟩

/-- A header, its first bracket already taken. -/
def readHeader? (s : State) : List Char → Read State
  | '[' :: rest =>
    match readKey? (depthBound - 1) rest with
    | some (path, ']' :: ']' :: rest) => (s.enter path Tree.openItem).map (·, rest)
    | _ => none
  | rest =>
    match readKey? (depthBound - 1) rest with
    | some (path, ']' :: rest) => (s.enter path Tree.openTable).map (·, rest)
    | _ => none

/-- A key with its value. -/
def readAssignment? (s : State) (cs : List Char) : Read State :=
  match readKey? (depthBound - 1) cs with
  | some (path, '=' :: rest) =>
    (readValue? (2 * rest.length + 2) (depthBound - 1) (skipBlanks rest)).bind fun (v, rest) =>
      match path.reverse with
      | [] => none
      | key :: way => (s.inHeader (Tree.addValue way.reverse key v)).map (·, rest)
  | _ => none

/-- The lines of a document; the first argument bounds their number. -/
def readLines : Nat → State → List Char → Option State
  | 0, _, _ => none
  | n + 1, s, cs =>
    let afterRead := fun (read : Read State) =>
      read.bind fun (s, rest) =>
        (endLine? rest).bind fun rest => readLines n s rest
    match skipBlanks cs with
    | [] => some s
    | '[' :: rest => afterRead (readHeader? s rest)
    | '#' :: rest => (endLine? ('#' :: rest)).bind (readLines n s)
    | rest =>
      match afterLineEnd? rest with
      | some rest => readLines n s rest
      | none => afterRead (readAssignment? s rest)

def read? (text : String) : Option Value :=
  let cs := match text.toList with
    | '\ufeff' :: rest => rest
    | cs => cs
  (readLines (cs.length + 1) ⟨[], []⟩ cs).map fun s => .mapping (Tree.entriesToMapping s.root)

end BackupProfiles.Toml
