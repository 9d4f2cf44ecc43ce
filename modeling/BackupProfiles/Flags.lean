import BackupProfiles.FlagValue

/-!
# Flags of a command line

Flags keep the order in which their names were first written. Writing a name again replaces its
values and keeps its place; renaming keeps the place and drops what had the new name.
-/

namespace BackupProfiles

structure Flags where
  entries : List (String × List String)
  deriving DecidableEq, Repr

namespace Flags

def empty : Flags := ⟨[]⟩

instance : Inhabited Flags := ⟨empty⟩

def names (f : Flags) : List String := f.entries.map (·.1)

def size (f : Flags) : Nat := f.entries.length

def isEmpty (f : Flags) : Bool := f.entries.isEmpty

def get? (f : Flags) (name : String) : Option (List String) :=
  (f.entries.find? fun e => e.1 == name).map (·.2)

def contains (f : Flags) (name : String) : Bool := (f.get? name).isSome

/-- Writes a name in its place, or at the end. -/
def write (name : String) (values : List String) :
    List (String × List String) → List (String × List String)
  | [] => [(name, values)]
  | e :: rest => if e.1 = name then (e.1, values) :: rest else e :: write name values rest

def add (f : Flags) (name : String) (values : List String) : Flags :=
  ⟨write name values f.entries⟩

def addValue (f : Flags) (name : String) (value : FlagValue) : Flags :=
  match value.emitted? with
  | some values => f.add name values
  | none => f

def addText (f : Flags) (name text : String) : Flags := f.addValue name (.text text)

def addSwitch (f : Flags) (name : String) (on : Bool) : Flags := f.addValue name (.switch on)

def addList (f : Flags) (name : String) (items : List String) : Flags :=
  f.addValue name (.list items)

/-- Writes all of another set of flags. -/
def extend (f g : Flags) : Flags := g.entries.foldl (fun f e => f.add e.1 e.2) f

/-- Removes the first entry with a name. -/
def erase (f : Flags) (name : String) : Flags := ⟨f.entries.eraseP fun e => e.1 == name⟩

/-- Gives the first entry with a name another one. -/
def renameFirst (source target : String) :
    List (String × List String) → List (String × List String)
  | [] => []
  | e :: rest =>
    if e.1 = source then (target, e.2) :: rest else e :: renameFirst source target rest

def rename (f : Flags) (source target : String) : Flags :=
  if source = target ∨ f.contains source = false then f
  else ⟨renameFirst source target (f.erase target).entries⟩

/-- The arguments of one flag. -/
def argumentsOf (name : String) : List String → List String
  | [] => ["--" ++ name]
  | values => values.map fun v => "--" ++ name ++ "=" ++ v

def arguments (f : Flags) : List String := f.entries.flatMap fun e => argumentsOf e.1 e.2

def text (f : Flags) : String := " ".intercalate f.arguments

end Flags

end BackupProfiles
