import BackupProfiles.Json.Number
import BackupProfiles.Value.Basic

/-!
# Reading JSON

`read?` takes a whole text and answers its value. A reader of a part answers the value and the
rest of the text; the first argument bounds the number of steps and `depth` the nesting.
-/

namespace BackupProfiles.Json

def skipSpace (cs : List Char) : List Char :=
  cs.dropWhile fun c => c == ' ' || c == '\n' || c == '\t' || c == '\r'

def hex4? (a b c d : Char) : Option Nat := Text.readNatIn? 16 [a, b, c, d]

/-- The code point of a pair of surrogates. -/
def surrogatePair? (high low : Nat) : Option Char :=
  if 0xd800 ≤ high && high < 0xdc00 && 0xdc00 ≤ low && low < 0xe000 then
    some (Char.ofNat (0x10000 + (high - 0xd800) * 0x400 + (low - 0xdc00)))
  else none

def simpleEscape? : Char → Option Char
  | '"' => some '"'
  | '\\' => some '\\'
  | '/' => some '/'
  | 'b' => some '\x08'
  | 'f' => some '\x0c'
  | 'n' => some '\n'
  | 'r' => some '\r'
  | 't' => some '\t'
  | _ => none

/-- The text of a string whose opening quote is taken, characters read so far in reverse. -/
def readString? (acc : List Char) : List Char → Option (String × List Char)
  | [] => none
  | '"' :: rest => some (String.ofList acc.reverse, rest)
  | '\\' :: 'u' :: a :: b :: c :: d :: rest => do
    let n ← hex4? a b c d
    if 0xd800 ≤ n && n < 0xe000 then
      match rest with
      | '\\' :: 'u' :: a :: b :: c :: d :: rest => do
        let low ← hex4? a b c d
        let x ← surrogatePair? n low
        readString? (x :: acc) rest
      | _ => none
    else readString? (Char.ofNat n :: acc) rest
  | '\\' :: c :: rest => do
    let x ← simpleEscape? c
    readString? (x :: acc) rest
  | c :: rest => if c.toNat < 0x20 then none else readString? (c :: acc) rest

def dropWord? (word : String) (cs : List Char) : Option (List Char) :=
  if word.toList.isPrefixOf cs then some (cs.drop word.length) else none

mutual

def readValue? : Nat → Nat → List Char → Option (Value × List Char)
  | 0, _, _ => none
  | steps + 1, depth, cs =>
    match skipSpace cs with
    | [] => none
    | '"' :: rest => (readString? [] rest).map fun (s, rest) => (.string s, rest)
    | '[' :: rest =>
      match depth, skipSpace rest with
      | 0, _ => none
      | _ + 1, ']' :: rest => some (.list [], rest)
      | depth + 1, rest => (readItems? steps depth rest).map fun (items, rest) => (.list items, rest)
    | '\x7b' :: rest =>
      match depth, skipSpace rest with
      | 0, _ => none
      | _ + 1, '\x7d' :: rest => some (.mapping [], rest)
      | depth + 1, rest =>
        (readEntries? steps depth rest).map fun (entries, rest) => (.mapping entries, rest)
    | 't' :: rest => (dropWord? "rue" rest).map fun rest => (.bool true, rest)
    | 'f' :: rest => (dropWord? "alse" rest).map fun rest => (.bool false, rest)
    | 'n' :: rest => (dropWord? "ull" rest).map fun rest => (.null, rest)
    | '-' :: rest => (readMagnitude? true rest).map fun (n, rest) => (.number n, rest)
    | rest => (readMagnitude? false rest).map fun (n, rest) => (.number n, rest)

/-- The items of a list from the first on, up to the closing bracket. -/
def readItems? : Nat → Nat → List Char → Option (List Value × List Char)
  | 0, _, _ => none
  | steps + 1, depth, cs => do
    let (item, rest) ← readValue? steps depth cs
    match skipSpace rest with
    | ',' :: rest =>
      let (items, rest) ← readItems? steps depth rest
      some (item :: items, rest)
    | ']' :: rest => some ([item], rest)
    | _ => none

/-- The entries of an object from the first on, up to the closing brace. -/
def readEntries? : Nat → Nat → List Char → Option (List (Value × Value) × List Char)
  | 0, _, _ => none
  | steps + 1, depth, cs =>
    match skipSpace cs with
    | '"' :: rest => do
      let (key, rest) ← readString? [] rest
      match skipSpace rest with
      | ':' :: rest =>
        let (value, rest) ← readValue? steps depth rest
        match skipSpace rest with
        | ',' :: rest =>
          let (entries, rest) ← readEntries? steps depth rest
          some ((.string key, value) :: entries, rest)
        | '\x7d' :: rest => some ([(.string key, value)], rest)
        | _ => none
      | _ => none
    | _ => none

end

/-- Lists and objects nest at most this deep. -/
def depthBound : Nat := 127

def read? (text : String) : Option Value :=
  let cs := text.toList
  match readValue? (2 * cs.length + 2) depthBound cs with
  | some (value, rest) => if (skipSpace rest).isEmpty then some value else none
  | none => none

end BackupProfiles.Json
