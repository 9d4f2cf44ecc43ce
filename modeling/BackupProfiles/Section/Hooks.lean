import BackupProfiles.Section.Written

/-!
# Hooks

Web calls made before and after a section runs. A moment takes one call or a list of calls, and a
call is written as a map or as the list of its fields in their order. A fault anywhere in a moment
only makes the value no call and no list of calls, so calls are read to an option.
-/

namespace BackupProfiles

structure Header where
  name : String
  value : Secret
  deriving DecidableEq, Inhabited

structure Call where
  method : String
  url : Secret
  headers : List Header
  body : String
  bodyTemplate : String
  skipsVerification : Bool
  deriving DecidableEq, Inhabited

structure Hooks where
  before : List Call
  after : List Call
  afterFail : List Call
  atEnd : List Call
  deriving DecidableEq

/-- Reads a record that is written as a map or as a list. Keys are names or positions of fields;
what is no field is ignored. -/
def readRecord? {σ : Type} (names : List String) (build? : Entries → Option σ) :
    Value → Option σ
  | .mapping m => do
    let keyed ← m.mapM fun (k, v) =>
      match k with
      | .string s => some (s, v)
      | .number n => n.word64?.map fun i => (names.getD i "", v)
      | _ => none
    let fields := keyed.filter fun e => names.contains e.1
    if (fields.map (·.1)).Nodup then build? fields else none
  | .list items => if items.length ≤ names.length then build? (names.zip items) else none
  | _ => none

/-- The value of a field, or what it is when it is missing; nothing when it is unreadable. -/
def Entries.readField? {α : Type} (es : Entries) (name : String) (r : Reader α) (default : α) :
    Option α :=
  match es.get? name with
  | none => some default
  | some v => (r v).toOption

namespace Header

def ofEntries? (es : Entries) : Option Header := do
  let name ← es.readField? "name" Reader.text ""
  let value ← es.readField? "value" Reader.secret ⟨""⟩
  return ⟨name, value⟩

def read? : Value → Option Header := readRecord? ["name", "value"] ofEntries?

def toValue (h : Header) : Value :=
  Written.record [("name", .string h.name), ("value", Written.secret h.value)]

end Header

namespace Call

def fieldNames : List String :=
  ["method", "url", "headers", "body", "body-template", "skip-tls-verification"]

def headers? : Reader (List Header) := fun
  | .list items => (items.mapM Header.read?).elim (.error (.mismatch .noVariant)) .ok
  | _ => .error (.mismatch .noVariant)

def ofEntries? (es : Entries) : Option Call := do
  let method ← es.readField? "method" Reader.text ""
  let url ← es.readField? "url" Reader.secret ⟨""⟩
  let headers ← es.readField? "headers" headers? []
  let body ← es.readField? "body" Reader.text ""
  let bodyTemplate ← es.readField? "body-template" Reader.text ""
  let skipsVerification ← es.readField? "skip-tls-verification" Reader.switch false
  return ⟨method, url, headers, body, bodyTemplate, skipsVerification⟩

def read? : Value → Option Call := readRecord? fieldNames ofEntries?

/-- A list of calls, or one call; a list is first taken as the former. -/
def readSome : Reader (List Call) := fun v =>
  let many? := match v with
    | .list items => items.mapM read?
    | _ => none
  match v with
  | .null => .ok []
  | _ =>
    match many? with
    | some calls => .ok calls
    | none =>
      match read? v with
      | some call => .ok [call]
      | none => .error (.mismatch (.ofVariants v))

def toValue (c : Call) : Value :=
  Written.record [
    ("method", .string c.method),
    ("url", Written.secret c.url),
    ("headers", .list (c.headers.map Header.toValue)),
    ("body", .string c.body),
    ("body-template", .string c.bodyTemplate),
    ("skip-tls-verification", .bool c.skipsVerification)]

end Call

namespace Hooks

def none : Hooks := ⟨[], [], [], []⟩

instance : Inhabited Hooks := ⟨none⟩

/-- All calls in the order of the moments. -/
def all (h : Hooks) : List Call := h.before ++ h.after ++ h.afterFail ++ h.atEnd

def isEmpty (h : Hooks) : Bool := h.all.isEmpty

def map (f : Call → Call) (h : Hooks) : Hooks :=
  ⟨h.before.map f, h.after.map f, h.afterFail.map f, h.atEnd.map f⟩

def checks : FieldChecks := [
  ("send-before", Call.readSome.fault?),
  ("send-after", Call.readSome.fault?),
  ("send-after-fail", Call.readSome.fault?),
  ("send-finally", Call.readSome.fault?)]

def ofEntries (es : Entries) : Hooks where
  before := es.read "send-before" Call.readSome []
  after := es.read "send-after" Call.readSome []
  afterFail := es.read "send-after-fail" Call.readSome []
  atEnd := es.read "send-finally" Call.readSome []

def fields (h : Hooks) : Entries := [
  ("send-before", .list (h.before.map Call.toValue)),
  ("send-after", .list (h.after.map Call.toValue)),
  ("send-after-fail", .list (h.afterFail.map Call.toValue)),
  ("send-finally", .list (h.atEnd.map Call.toValue))]

def toValue (h : Hooks) : Value := Written.record h.fields

end Hooks

end BackupProfiles
