import BackupProfiles.Value.Number

/-!
# Values of a document

`Value` is the tree every format is read into. A mapping keeps its entries in document order and
allows any value as a key; `keyText` is the text of the keys that have one, and `sameKey` tells which
values stand for one key. A tagged value carries the tag as it is displayed, with its exclamation
mark.
-/

namespace BackupProfiles

inductive Value where
  | null
  | bool (b : Bool)
  | number (n : Number)
  | string (s : String)
  | list (items : List Value)
  | mapping (entries : List (Value × Value))
  | tagged (tag : String) (content : Value)
  deriving Repr, Inhabited

/-- What sort of value something is, as messages name it. -/
inductive Kind where
  | null
  | bool
  | number
  | string
  | list
  | map
  | tagged
  deriving DecidableEq, Repr, Inhabited

def Kind.text : Kind → String
  | null => "null"
  | bool => "bool"
  | number => "number"
  | string => "string"
  | list => "list"
  | map => "map"
  | tagged => "tagged value"

namespace Value

mutual

def decEq : (a b : Value) → Decidable (a = b)
  | .null, .null => isTrue rfl
  | .bool a, .bool b => decidable_of_iff (a = b) (by simp)
  | .number a, .number b => decidable_of_iff (a = b) (by simp)
  | .string a, .string b => decidable_of_iff (a = b) (by simp)
  | .list a, .list b =>
    match decEqList a b with
    | isTrue h => isTrue (by rw [h])
    | isFalse h => isFalse (by simpa using h)
  | .mapping a, .mapping b =>
    match decEqEntries a b with
    | isTrue h => isTrue (by rw [h])
    | isFalse h => isFalse (by simpa using h)
  | .tagged s a, .tagged t b =>
    match decEq a b with
    | isTrue h => decidable_of_iff (s = t) (by simp [h])
    | isFalse h => isFalse (by simp [h])
  | .null, .bool _ | .null, .number _ | .null, .string _ | .null, .list _ | .null, .mapping _
  | .null, .tagged _ _ => isFalse nofun
  | .bool _, .null | .bool _, .number _ | .bool _, .string _ | .bool _, .list _
  | .bool _, .mapping _ | .bool _, .tagged _ _ => isFalse nofun
  | .number _, .null | .number _, .bool _ | .number _, .string _ | .number _, .list _
  | .number _, .mapping _ | .number _, .tagged _ _ => isFalse nofun
  | .string _, .null | .string _, .bool _ | .string _, .number _ | .string _, .list _
  | .string _, .mapping _ | .string _, .tagged _ _ => isFalse nofun
  | .list _, .null | .list _, .bool _ | .list _, .number _ | .list _, .string _
  | .list _, .mapping _ | .list _, .tagged _ _ => isFalse nofun
  | .mapping _, .null | .mapping _, .bool _ | .mapping _, .number _ | .mapping _, .string _
  | .mapping _, .list _ | .mapping _, .tagged _ _ => isFalse nofun
  | .tagged _ _, .null | .tagged _ _, .bool _ | .tagged _ _, .number _ | .tagged _ _, .string _
  | .tagged _ _, .list _ | .tagged _ _, .mapping _ => isFalse nofun

def decEqList : (a b : List Value) → Decidable (a = b)
  | [], [] => isTrue rfl
  | [], _ :: _ => isFalse nofun
  | _ :: _, [] => isFalse nofun
  | x :: xs, y :: ys =>
    match decEq x y, decEqList xs ys with
    | isTrue h, isTrue g => isTrue (by rw [h, g])
    | isFalse h, _ => isFalse (by simp [h])
    | _, isFalse g => isFalse (by simp [g])

def decEqEntries : (a b : List (Value × Value)) → Decidable (a = b)
  | [], [] => isTrue rfl
  | [], _ :: _ => isFalse nofun
  | _ :: _, [] => isFalse nofun
  | (j, x) :: xs, (k, y) :: ys =>
    match decEq j k, decEq x y, decEqEntries xs ys with
    | isTrue f, isTrue h, isTrue g => isTrue (by rw [f, h, g])
    | isFalse f, _, _ => isFalse (by simp [f])
    | _, isFalse h, _ => isFalse (by simp [h])
    | _, _, isFalse g => isFalse (by simp [g])

end

instance : DecidableEq Value := decEq

def kind : Value → Kind
  | null => .null
  | bool _ => .bool
  | number _ => .number
  | string _ => .string
  | list _ => .list
  | mapping _ => .map
  | tagged _ _ => .tagged

/-- The value inside any number of tags. -/
def untagged : Value → Value
  | tagged _ content => content.untagged
  | v => v

def boolText (b : Bool) : String := if b then "true" else "false"

/-- The text of a key; only strings, numbers and booleans have one. -/
def keyText : Value → Option String
  | string s => some s
  | number n => some n.text
  | bool b => some (boolText b)
  | _ => none

/-- Equality of numbers as keys: zeros are equal whatever their sign, and what is no number equals
itself. -/
def sameFloat (x y : Binary64) : Bool := x == y || (x.isZero && y.isZero)

mutual

/-- Whether two values stand for one key: they are equal as numbers, texts, lists and maps. The order
of a map does not count. -/
def sameKey : Value → Value → Bool
  | .string s, .string t => s == t
  | .number (.float x), .number (.float y) => sameFloat x y
  | .list xs, .list ys => sameItems xs ys
  | .mapping xs, .mapping ys => entriesIn xs ys && ys.all fun e => entryIn xs e.1 e.2
  | .tagged s x, .tagged t y => s == t && sameKey x y
  | x, y => x == y
termination_by structural v => v

def sameItems : List Value → List Value → Bool
  | [], [] => true
  | x :: xs, y :: ys => sameKey x y && sameItems xs ys
  | _, _ => false
termination_by structural items => items

/-- Every entry of the first list has one with the same key and value in the second. -/
def entriesIn : List (Value × Value) → List (Value × Value) → Bool
  | [], _ => true
  | (k, v) :: xs, ys => ys.any (fun e => sameKey k e.1 && sameKey v e.2) && entriesIn xs ys
termination_by structural entries => entries

/-- Some entry of a list has a key and a value that are the same. -/
def entryIn : List (Value × Value) → Value → Value → Bool
  | [], _, _ => false
  | (k, v) :: xs, key, value => sameKey k key && sameKey v value || entryIn xs key value
termination_by structural entries => entries

end

mutual

/-- Whether a tag stands anywhere in the value. -/
def hasTag : Value → Bool
  | .tagged _ _ => true
  | .list items => anyHasTag items
  | .mapping entries => anyEntryHasTag entries
  | _ => false

def anyHasTag : List Value → Bool
  | [] => false
  | v :: rest => v.hasTag || anyHasTag rest

def anyEntryHasTag : List (Value × Value) → Bool
  | [] => false
  | (k, v) :: rest => k.hasTag || v.hasTag || anyEntryHasTag rest

end

end Value

/-- The entries of a mapping in document order. -/
abbrev Mapping := List (Value × Value)

namespace Mapping

def get? (m : Mapping) (key : Value) : Option Value :=
  (m.find? fun e => e.1.sameKey key).map (·.2)

def keys (m : Mapping) : List Value := m.map (·.1)

/-- Writes a key: in its place if it is there, at the end if it is new. -/
def insert : Mapping → Value → Value → Mapping
  | [], key, value => [(key, value)]
  | e :: rest, key, value =>
    if e.1.sameKey key then (e.1, value) :: rest else e :: insert rest key value

/-- Removes a key; the last entry moves into its place. -/
def erase : Mapping → Value → Mapping
  | [], _ => []
  | e :: rest, key =>
    if e.1.sameKey key then
      match rest.getLast? with
      | none => []
      | some final => final :: rest.dropLast
    else e :: erase rest key

end Mapping

namespace Value

def mapping? : Value → Option Mapping
  | mapping entries => some entries
  | _ => none

/-- The value of a key that is a text. -/
def member? (v : Value) (key : String) : Option Value :=
  v.mapping?.bind fun m => m.get? (string key)

end Value

end BackupProfiles
