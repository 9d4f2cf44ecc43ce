import BackupProfiles.Value.Basic

/-!
# Tables in TOML

The tables of a document are opened in three ways, and what may be added to a table later depends on
that: by a header, on the way of a header, or by a key with dots. `Tree.modify` goes down a path and
opens the tables that are missing; where it meets a list of tables it goes on in the last one.
-/

namespace BackupProfiles.Toml

inductive Opening where
  /-- By a header of its own, or as the root. -/
  | stated
  /-- On the way of a header. -/
  | passed
  /-- By a key with dots. -/
  | dotted
  deriving DecidableEq, Repr

inductive Tree where
  | leaf (v : Value)
  | table (opening : Opening) (entries : List (String × Tree))
  | tables (earlier : List (List (String × Tree))) (last : List (String × Tree))
  deriving Inhabited

abbrev Entries := List (String × Tree)

namespace Tree

def find? (key : String) (es : Entries) : Option Tree := List.lookup key es

def replace (key : String) (t : Tree) (es : Entries) : Entries :=
  es.map fun e => if e.1 = key then (key, t) else e

def erase (key : String) (es : Entries) : Entries := es.filter fun e => e.1 ≠ key

/-- Changes the table under a path. A key with dots may not enter a table that has a header. -/
def modify (change : Opening → Entries → Option Entries) (by_ : Opening) :
    List String → Opening → Entries → Option Entries
  | [], opening, es => change opening es
  | key :: path, _, es =>
    match find? key es with
    | none => (modify change by_ path by_ []).map fun inner => es ++ [(key, .table by_ inner)]
    | some (.leaf _) => none
    | some (.tables earlier last) =>
      (modify change by_ path .stated last).map fun inner => replace key (.tables earlier inner) es
    | some (.table opening inner) =>
      if by_ = .dotted ∧ opening = .stated then none
      else (modify change by_ path opening inner).map fun inner =>
        replace key (.table opening inner) es

/-- Adds a value to a table opened in some way. A table is either filled below its header or by keys
with dots. -/
def addEntry (path : List String) (key : String) (v : Value) (opening : Opening) (es : Entries) :
    Option Entries :=
  if (opening = .dotted ↔ path = []) ∨ (find? key es).isSome then none
  else some (es ++ [(key, .leaf v)])

/-- Adds a value under a key with dots. -/
def addValue (path : List String) (key : String) (v : Value) (opening : Opening) (es : Entries) :
    Option Entries :=
  modify (addEntry path key v) .dotted path opening es

/-- Opens a table by its header. One that was only passed so far moves to the end. -/
def openTable (key : String) (_ : Opening) (es : Entries) : Option Entries :=
  match find? key es with
  | none => some (es ++ [(key, .table .stated [])])
  | some (.table .passed inner) => some (erase key es ++ [(key, .table .stated inner)])
  | some _ => none

/-- Opens one more table of a list by its header. -/
def openItem (key : String) (_ : Opening) (es : Entries) : Option Entries :=
  match find? key es with
  | none => some (es ++ [(key, .tables [] [])])
  | some (.tables earlier last) => some (replace key (.tables (earlier ++ [last]) []) es)
  | some _ => none

mutual

def toValue : Tree → Value
  | .leaf v => v
  | .table _ entries => .mapping (entriesToMapping entries)
  | .tables earlier last => .list (tablesToValues earlier ++ [.mapping (entriesToMapping last)])

def entriesToMapping : Entries → Mapping
  | [] => []
  | (key, t) :: rest => (.string key, toValue t) :: entriesToMapping rest

def tablesToValues : List (List (String × Tree)) → List Value
  | [] => []
  | t :: rest => .mapping (entriesToMapping t) :: tablesToValues rest

end

end Tree

end BackupProfiles.Toml
