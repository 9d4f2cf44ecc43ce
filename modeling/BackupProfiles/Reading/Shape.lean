import BackupProfiles.Reading.Reader

/-!
# Shapes of sections

A shape names the fields of a section and how each is read. An open section keeps the entries that
are not its fields as flags. Its fields come in an own part and in groups that several sections
share. Reading checks the whole section first: the own fields and all tags in document order, then
each group in document order, then the flags. A section without a fault is put together by looking
its fields up, so the order of its entries does not matter.
-/

namespace BackupProfiles

/-- The names of fields with what is wrong with a value of each. -/
abbrev FieldChecks := List (String × (Value → Option Fault))

/-- The entries of a section whose keys are texts. -/
abbrev Entries := List (String × Value)

namespace Entries

def get? (es : Entries) (name : String) : Option Value := List.lookup name es

/-- The value of a field, or what it is when it is missing or unreadable. -/
def read {α : Type} (es : Entries) (name : String) (r : Reader α) (default : α) : α :=
  match es.get? name with
  | none => default
  | some v =>
    match r v with
    | .ok a => a
    | .error _ => default

def ofMapping (m : Mapping) : Entries :=
  m.filterMap fun (k, v) =>
    match k.untagged with
    | .string s => some (s, v)
    | _ => none

end Entries

structure Shape where
  /-- What faults call the section. -/
  name : String
  own : FieldChecks
  groups : List FieldChecks

namespace Shape

/-- The first fault among own fields, in document order. Keys have to be texts and come once, and
no other value may hold a tag. -/
def ownFault? (own : FieldChecks) (seen : List String) : Mapping → Option Fault
  | [] => none
  | (k, v) :: rest =>
    match k.untagged with
    | .string name =>
      match own.lookup name with
      | some check =>
        if seen.contains name then some (.mismatch (.duplicate name))
        else (check v).or (ownFault? own (name :: seen) rest)
      | none => if v.hasTag then some (.mismatch .tag) else ownFault? own seen rest
    | found => some (.unexpected found "field identifier")

/-- The first fault among the fields of a group, in document order. -/
def groupFault? (group : FieldChecks) (seen : List String) : Entries → Option Fault
  | [] => none
  | (name, v) :: rest =>
    match group.lookup name with
    | some check =>
      if seen.contains name then some (.mismatch (.duplicate name))
      else (check v).or (groupFault? group (name :: seen) rest)
    | none => groupFault? group seen rest

def names (checks : FieldChecks) : List String := checks.map (·.1)

def fieldNames (s : Shape) : List String := names s.own ++ s.groups.flatMap names

/-- The entries that are no fields. -/
def others (s : Shape) (es : Entries) : Entries := es.filter fun e => !s.fieldNames.contains e.1

def flagFault? (es : Entries) : Option Fault :=
  es.findSome? fun e => Reader.fault? Reader.flagValue e.2

/-- The first fault of an open section. -/
def fault? (s : Shape) (m : Mapping) : Option Fault :=
  let es := Entries.ofMapping m
  ((ownFault? s.own [] m).or (s.groups.findSome? fun g => groupFault? g [] es)).or
    (flagFault? (s.others es))

/-- The flags of an open section without faults; of one name the last entry counts. -/
def flags (s : Shape) (es : Entries) : Table FlagValue :=
  Table.ofList ((s.others es).filterMap fun e =>
    match FlagValue.ofValue e.2 with
    | .ok x => some (e.1, x)
    | .error _ => none)

/-- Reads an open section; null is the one without entries. -/
def readOpen {σ : Type} (s : Shape) (build : Entries → σ) : Reader σ := fun v =>
  match v.untagged with
  | .mapping m =>
    match s.fault? m with
    | some f => .error f
    | none => .ok (build (Entries.ofMapping m))
  | .null => .ok (build [])
  | found => .error (.unexpected found ("struct " ++ s.name))

/-- The first fault of a closed section, in document order; entries that are no fields do not
count. -/
def closedFault? (own : FieldChecks) (seen : List String) : Mapping → Option Fault
  | [] => none
  | (k, v) :: rest =>
    match k.untagged with
    | .string name =>
      match own.lookup name with
      | some check =>
        if seen.contains name then some (.mismatch (.duplicate name))
        else (check v).or (closedFault? own (name :: seen) rest)
      | none => closedFault? own seen rest
    | found => some (.unexpected found "field identifier")

/-- Reads a section that ignores what is no field of it. -/
def readClosed {σ : Type} (name : String) (own : FieldChecks) (build : Entries → σ) : Reader σ :=
  fun v =>
  match v.untagged with
  | .mapping m =>
    match closedFault? own [] m with
    | some f => .error f
    | none => .ok (build (Entries.ofMapping m))
  | .null => .ok (build [])
  | found => .error (.unexpected found ("struct " ++ name))

end Shape

end BackupProfiles
