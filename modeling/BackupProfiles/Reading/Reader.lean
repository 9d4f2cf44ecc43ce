import BackupProfiles.Reading.Fault
import BackupProfiles.Secret
import BackupProfiles.Table
import BackupProfiles.Text.Blank

/-!
# Readers of values

A reader turns the value of a field into what the field holds, or says why it cannot. Texts,
numbers and switches drop the tags of the value; readers that tell kinds apart see a tag as a kind
of its own.
-/

namespace BackupProfiles

abbrev Reader (α : Type) := Value → Except Fault α

namespace Reader

def fault? {α : Type} (r : Reader α) (v : Value) : Option Fault :=
  match r v with
  | .ok _ => none
  | .error f => some f

def text : Reader String := fun v =>
  match v.untagged with
  | .string s => .ok s
  | found => .error (.unexpected found "a string")

def switch : Reader Bool := fun v =>
  match v.untagged with
  | .bool b => .ok b
  | found => .error (.unexpected found "a boolean")

/-- An integer of a type, between two bounds. -/
def integer (type : String) (least greatest : Int) : Reader Int := fun v =>
  match v.untagged with
  | .number (.int n) =>
    if least ≤ n ∧ n ≤ greatest then .ok n else .error (.mismatch (.range n type))
  | found => .error (.unexpected found type)

def int32 : Reader Int := integer "i32" (-Text.wordBound 31) (Text.wordBound 31 - 1)

def word64 : Reader Int := integer "u64" 0 (Text.word64Bound - 1)

/-- Null is nothing. -/
def optional {α : Type} (r : Reader α) : Reader (Option α)
  | .null => .ok none
  | v => (r v).map some

/-- A list of texts; null is the empty one. -/
def textList : Reader (List String) := fun v =>
  match v.untagged with
  | .list items => items.mapM text
  | .null => .ok []
  | found => .error (.unexpected found "a sequence")

/-- The texts of a list that holds nothing else. -/
def allTexts? : List Value → Option (List String)
  | [] => some []
  | .string s :: rest => (allTexts? rest).map (s :: ·)
  | _ :: _ => none

/-- One text or a list of texts, without tags; null is no text. -/
def texts : Reader (List String)
  | .null => .ok []
  | .string s => .ok [s]
  | .list items =>
    match allTexts? items with
    | some texts => .ok texts
    | none => .error (.mismatch (.ofVariants (.list items)))
  | v => .error (.mismatch (.ofVariants v))

/-- A secret; numbers and booleans count as their texts. -/
def secret : Reader Secret
  | .null => .ok ⟨""⟩
  | .string s => .ok ⟨s⟩
  | .bool b => .ok ⟨Value.boolText b⟩
  | .number n => .ok ⟨n.text⟩
  | v => .error (.notText v.kind)

/-- A level below 256; a switch counts as level one or zero. -/
def verbosity : Reader Nat
  | .null => .ok 0
  | .bool b => .ok (if b then 1 else 0)
  | .number n =>
    match n.word64?.filter (· < 256) with
    | some level => .ok level
    | none => .error (.verbosityLevel n)
  | v => .error (.notLevel v.kind)

/-- A duration, or a number of seconds. Null and blank texts are none. -/
def duration : Reader (Option Duration)
  | .null => .ok none
  | .number n =>
    match Duration.ofSeconds? n.toBinary64 with
    | some d => .ok (some d)
    | none => .error (.durationNumber n)
  | .string s =>
    if Text.isAllBlank s then .ok none
    else match Duration.read s with
      | .ok d => .ok (some d)
      | .error why => .error (.durationText why s)
  | v => .error (.notDuration v.kind)

def flagValue : Reader FlagValue := fun v =>
  match FlagValue.ofValue v with
  | .ok x => .ok x
  | .error why => .error (.flagValue why)

/-- The keys of a mapping as texts, with the values read. -/
def entries {α : Type} (r : Reader α) : List (Value × Value) → Except Fault (List (String × α))
  | [] => .ok []
  | (k, v) :: rest => do
    let key ← text k
    let value ← r v
    let others ← entries r rest
    return (key, value) :: others

/-- A table of values; null is the empty one. -/
def table {α : Type} (r : Reader α) : Reader (Table α) := fun v =>
  match v.untagged with
  | .mapping m => (entries r m).map Table.ofList
  | .null => .ok .empty
  | found => .error (.unexpected found "a map")

end Reader

end BackupProfiles
