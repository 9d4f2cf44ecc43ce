import BackupProfiles.Reading.Shape

/-!
# Writing sections

The values that fields are written as, and a section as a mapping of its fields in their order with
its flags behind them.
-/

namespace BackupProfiles.Written

def texts (items : List String) : Value := .list (items.map .string)

def secret (s : Secret) : Value := .string s.redacted

def wait : Option Duration → Value
  | some d => .string d.text
  | none => .null

def integer (n : Int) : Value := .number (.int n)

def record (fields : Entries) : Value := .mapping (fields.map fun e => (.string e.1, e.2))

def flags (t : Table FlagValue) : Entries := t.entries.map fun e => (e.1, e.2.toValue)

def table {α : Type} (write : α → Value) (t : Table α) : Value :=
  record (t.entries.map fun e => (e.1, write e.2))

def optional {α : Type} (write : α → Value) : Option α → Value
  | some a => write a
  | none => .null

end BackupProfiles.Written
