import BackupProfiles.Value.Basic

/-!
# Writing JSON

`write` lays a value out over lines, two spaces a level. A double that is no finite number is
written as null, and a tag is left out.
-/

namespace BackupProfiles.Json

def escaped (c : Char) : List Char :=
  match c with
  | '"' => ['\\', '"']
  | '\\' => ['\\', '\\']
  | '\x08' => ['\\', 'b']
  | '\x0c' => ['\\', 'f']
  | '\n' => ['\\', 'n']
  | '\r' => ['\\', 'r']
  | '\t' => ['\\', 't']
  | c => if c.toNat < 0x20 then '\\' :: 'u' :: Text.paddedHex 4 c.toNat else [c]

def quoted (s : String) : String :=
  String.ofList ('"' :: s.toList.flatMap escaped ++ ['"'])

def numberText : Number → String
  | .int n => Text.intText n
  | .float x => if x.isFinite then NumberStyle.scientific.write x else "null"

/-- A line break and the indentation of a level. -/
def newLine (level : Nat) : String := String.ofList ('\n' :: List.replicate (2 * level) ' ')

mutual

/-- The text of a value that stands at a level of indentation. -/
def writeAt (level : Nat) : Value → String
  | .null => "null"
  | .bool b => Value.boolText b
  | .number n => numberText n
  | .string s => quoted s
  | .list [] => "[]"
  | .list (v :: rest) =>
    "[" ++ newLine (level + 1) ++ writeAt (level + 1) v ++ writeItems (level + 1) rest
      ++ newLine level ++ "]"
  | .mapping [] => "\x7b\x7d"
  | .mapping ((k, v) :: rest) =>
    "\x7b" ++ newLine (level + 1) ++ quoted (k.keyText.getD "") ++ ": " ++ writeAt (level + 1) v
      ++ writeEntries (level + 1) rest ++ newLine level ++ "\x7d"
  | .tagged _ content => writeAt level content

def writeItems (level : Nat) : List Value → String
  | [] => ""
  | v :: rest => "," ++ newLine level ++ writeAt level v ++ writeItems level rest

def writeEntries (level : Nat) : List (Value × Value) → String
  | [] => ""
  | (k, v) :: rest =>
    "," ++ newLine level ++ quoted (k.keyText.getD "") ++ ": " ++ writeAt level v
      ++ writeEntries level rest

end

def write (v : Value) : String := writeAt 0 v

end BackupProfiles.Json
