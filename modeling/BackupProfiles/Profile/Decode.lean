import BackupProfiles.Issues
import BackupProfiles.Profile.Basic

/-!
# Reading the body of a profile

Generic sections are split off first: one that cannot be read is recorded and left out. So is any
other entry that neither belongs to a section of the table nor can stand in a flag. What is left
has to be read without a fault.
-/

namespace BackupProfiles

/-- A section that could not be used, with the reason. -/
abbrev FoundIssue := String × SectionIssue

/-- What becomes of an entry of a body. -/
inductive EntryRole where
  | generic (name : String)
  | kept
  | refused (name : String) (why : FlagValue.Refusal)
  /-- The key has no text. -/
  | nameless
  deriving DecidableEq, Repr

namespace EntryRole

def of (table : CommandTable) (key value : Value) : EntryRole :=
  match key.keyText with
  | none => nameless
  | some name =>
    if table.isGeneric name then generic name
    else if table.contains name || name == "env" then kept
    else match FlagValue.ofValue value with
      | .ok _ => kept
      | .error why => refused name why

end EntryRole

/-- The entries of generic sections; of one name the last counts. -/
def genericEntries (table : CommandTable) (body : Mapping) : Table Value :=
  Table.ofList (body.filterMap fun e =>
    match EntryRole.of table e.1 e.2 with
    | .generic name => some (name, e.2)
    | _ => none)

def keptEntries (table : CommandTable) (body : Mapping) : Mapping :=
  body.filter fun e => EntryRole.of table e.1 e.2 == .kept

def refusedEntries (table : CommandTable) (body : Mapping) : List FoundIssue :=
  body.filterMap fun e =>
    match EntryRole.of table e.1 e.2 with
    | .refused name why => some (name, .unusable why)
    | _ => none

/-- Reads a generic section; null is the one without entries. -/
def readGeneric : Value → Except SectionIssue GenericSection
  | .null => .ok .empty
  | .mapping m =>
    match GenericSection.read (.mapping m) with
    | .ok g => .ok g
    | .error f => .error (.invalid f.message? f.text)
  | v => .error (.notMap v.kind)

/-- The generic sections of the table. A value is used up by the first row of its name. -/
def readGenerics (values : Table Value) (used : List String) :
    List String → List (String × Option (Except SectionIssue GenericSection))
  | [] => []
  | name :: rest =>
    (name, if used.contains name then none else (values.get? name).map readGeneric)
      :: readGenerics values (name :: used) rest

/-- The result of reading a body, with the issues found. -/
structure Decoded where
  result : Except Fault Profile
  issues : List FoundIssue

def decode (table : CommandTable) (name : String) (body : Mapping) : Decoded :=
  let refused := refusedEntries table body
  match Profile.readBody (.mapping (keptEntries table body)) with
  | .error f => ⟨.error f, refused⟩
  | .ok p =>
    let sections := readGenerics (genericEntries table body) [] table.genericNames
    let generic := Table.ofList (sections.map fun e => (e.1, e.2.bind Except.toOption))
    let unread := sections.filterMap fun e =>
      match e.2 with
      | some (.error issue) => some (e.1, issue)
      | _ => none
    ⟨.ok { p with name := name, generic := generic }, refused ++ unread⟩

end BackupProfiles
