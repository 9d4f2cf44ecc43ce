import BackupProfiles.Path.Basic

/-!
# Texts of paths

What is done to paths as they are written. `anchored` makes a file setting relative to a root: a
setting that is empty or absolute stays as it is, `~` is the home folder, and anything else is
seen from the root and cleaned. The rest takes a written path apart without changing its spelling.
-/

namespace BackupProfiles.Path

def cleaned (s : String) : String := (ofText s).clean.text

/-- The part of a setting after the home sign, if it starts with one. -/
def afterHome? (s : String) : Option String :=
  match s.toList with
  | ['~'] => some ""
  | '~' :: '/' :: rest => some (String.ofList (rest.dropWhile (· == '/')))
  | _ => none

/-- A file setting seen from a root. Without a known home folder, `~` stays as it is. -/
def anchored (home? : Option String) (root setting : String) : String :=
  if setting.isEmpty then ""
  else match afterHome? setting with
    | some rest =>
      match home? with
      | some home => (ofText home ++ ofText rest).clean.text
      | none => setting
    | none =>
      if isAbsoluteText setting then setting
      else (ofText root ++ ofText setting).clean.text

/-- Two written paths one after the other; a second one that is absolute stands alone. -/
def joinText (a b : String) : String :=
  if isAbsoluteText b || a.isEmpty then b
  else if a.toList.getLast? == some '/' then a ++ b
  else a ++ "/" ++ b

/-- A component that changes nothing. -/
def isIdle (component : List Char) : Bool := component == [] || component == ['.']

/-- What a written path starts with: the root, the place itself, or nothing. -/
def start (cs : List Char) : List Char :=
  match cs with
  | '/' :: _ => ['/']
  | ['.'] | '.' :: '/' :: _ => ['.']
  | _ => []

/-- The components after the start, the last first, without idle ones at the end. -/
def backwards (cs : List Char) : List (List Char) :=
  (Text.splitChars '/' (cs.drop (start cs).length)).reverse.dropWhile isIdle

/-- The folder part of a written path; nothing without a last component. -/
def folderText (s : String) : String :=
  let cs := s.toList
  match backwards cs with
  | [] => ""
  | _ :: before =>
    String.ofList (start cs ++ Text.joinChars '/' (before.dropWhile isIdle).reverse)

def fileName? (s : String) : Option String :=
  match backwards s.toList with
  | [] | ['.', '.'] :: _ => none
  | name :: _ => some (String.ofList name)

/-- What follows the last dot of a file name, unless that dot comes first. -/
def extension? (s : String) : Option String :=
  (fileName? s).bind fun name =>
    match (Text.split '.' name).reverse with
    | [] | [_] | [_, ""] => none
    | final :: _ => some final

end BackupProfiles.Path
