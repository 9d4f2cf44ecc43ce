import BackupProfiles.Yaml.Place
import BackupProfiles.Yaml.Scalar

/-!
# Writing YAML

`write` lays a value out in blocks, two spaces a level; the items of a list stand below its key
without indentation. A text is written plain where it can be read back as that text, or else in
single quotes, or in double quotes where a character needs an escape. A text of several lines is a
block. A tag is left out.
-/

namespace BackupProfiles.Yaml

/-- How a text may be written. -/
inductive TextStyle where
  | plain
  | single
  | double
  | block
  deriving DecidableEq, Repr

namespace TextStyle

/-- A character that needs no escape. -/
def isPrintable (c : Char) : Bool :=
  let n := c.toNat
  n == 0xa || (0x20 ≤ n && n ≤ 0x7e) || (0xa0 ≤ n && n ≤ 0xfffd && n != 0xfeff)
    || 0x10000 ≤ n

/-- Words that other readers take for booleans. -/
def booleanWords : List String :=
  ["y", "Y", "yes", "Yes", "YES", "n", "N", "no", "No", "NO", "true", "True", "TRUE", "false",
    "False", "FALSE", "on", "On", "ON", "off", "Off", "OFF"]

/-- Whether the text is no text when it is written plain. -/
def readsOtherwise (s : String) : Bool :=
  booleanWords.contains s || hasLeadingZero s.toList || ofPlain? s != some (.string s)

/-- Whether a mark stands in a text behind its first character. -/
def hasMark (afterBlank : Bool) : List Char → Bool
  | [] => false
  | c :: rest =>
    (c == ':' && startsBlank rest) || (c == '#' && afterBlank)
      || hasMark (isBlank c || isBreak c) rest

/-- Whether a text starts with a mark. -/
def startsMark : List Char → Bool
  | [] => false
  | c :: rest =>
    "#,[]\x7b\x7d&*!|>\x27\"%@\x60".toList.contains c
      || ((c == '?' || c == ':' || c == '-') && startsBlank rest)
      || ["---".toList, "...".toList].contains ((c :: rest).take 3)

def hasMarks (cs : List Char) : Bool :=
  startsMark cs || hasMark (cs.head?.any fun c => isBlank c || isBreak c) (cs.drop 1)

/-- Whether one of the first kind of characters stands right before one of the second kind. -/
def hasPair (first second : Char → Bool) : List Char → Bool
  | c :: d :: rest => (first c && second d) || hasPair first second (d :: rest)
  | _ => false

def needsEscapes (cs : List Char) : Bool :=
  cs.any (fun c => !isPrintable c) || hasPair (· == ' ') isBreak cs

def isPlain (cs : List Char) : Bool :=
  !needsEscapes cs && !hasMarks cs && !cs.any isBreak && cs.head? != some ' '
    && cs.getLast? != some ' '

def isSingle (cs : List Char) : Bool := !needsEscapes cs && !hasPair isBreak (· == ' ') cs

def isBlock (cs : List Char) : Bool := !needsEscapes cs && cs.getLast? != some ' '

def ofText (s : String) : TextStyle :=
  let cs := s.toList
  if booleanWords.contains s then single
  else if cs.contains '\n' then (if isBlock cs then block else double)
  else if isPlain cs && !readsOtherwise s then plain
  else if isSingle cs then single
  else double

end TextStyle

/-- Hexadecimal digits in upper case, filled with zeros up to a width. -/
def upperHex (width n : Nat) : List Char := (Text.paddedHex width n).map Char.toUpper

/-- The escape of a character, without its backslash. -/
def escapeOf (c : Char) : List Char :=
  match c with
  | '\x00' => ['0']
  | '\x07' => ['a']
  | '\x08' => ['b']
  | '\t' => ['t']
  | '\n' => ['n']
  | '\x0b' => ['v']
  | '\x0c' => ['f']
  | '\r' => ['r']
  | '\x1b' => ['e']
  | '"' => ['"']
  | '\\' => ['\\']
  | '\x85' => ['N']
  | '\u2028' => ['L']
  | '\u2029' => ['P']
  | _ =>
    let n := c.toNat
    if n ≤ 0xff then 'x' :: upperHex 2 n else 'u' :: upperHex 4 n

def escaped (c : Char) : List Char :=
  if !TextStyle.isPrintable c || isBreak c || c == '"' || c == '\\' then '\\' :: escapeOf c else [c]

def doubleQuoted (cs : List Char) : List Char := '"' :: cs.flatMap escaped ++ ['"']

def singleQuoted (cs : List Char) : List Char :=
  '\x27' :: (cs.flatMap fun c => if c == '\x27' then [c, c] else [c]) ++ ['\x27']

def spaces (n : Nat) : List Char := List.replicate n ' '

/-- The marks of a block: its indentation where the first line does not show it, and what becomes of
the line breaks at its end. -/
def blockMarks (cs : List Char) : List Char :=
  let indentation := if cs.head?.any (fun c => c == ' ' || isBreak c) then ['2'] else []
  let chomp := match cs.reverse with
    | [] => ['-']
    | c :: rest =>
      if !isBreak c then ['-']
      else match rest with
        | [] => ['+']
        | d :: _ => if isBreak d then ['+'] else []
  indentation ++ chomp

/-- The lines of a block, each indented unless it is empty. -/
def blockLines (indent : Nat) (atStart : Bool) : List Char → List Char
  | [] => if atStart then [] else ['\n']
  | c :: rest =>
    if isBreak c then c :: blockLines indent true rest
    else (if atStart then spaces indent else []) ++ c :: blockLines indent false rest

/-- A text as written, with the line break behind it; the lines of a block stand at a column. -/
def textLine (column : Nat) (s : String) : List Char :=
  let cs := s.toList
  match TextStyle.ofText s with
  | .plain => cs ++ ['\n']
  | .single => singleQuoted cs ++ ['\n']
  | .double => doubleQuoted cs ++ ['\n']
  | .block => '|' :: blockMarks cs ++ '\n' :: blockLines column true cs

/-- A value that is written on one line, a block apart. -/
def leafLine (column : Nat) : Value → List Char
  | .null => "null\n".toList
  | .bool b => (Value.boolText b).toList ++ ['\n']
  | .number n => n.text.toList ++ ['\n']
  | .string s => textLine column s
  | .list _ => "[]\n".toList
  | .mapping _ => "\x7b\x7d\n".toList
  | .tagged _ content => leafLine column content

/-- The greatest size of a key that stands in front of its colon. -/
def keyBound : Nat := 128

/-- Whether a key stands on one line in front of its colon. -/
def isShortKey : Value → Bool
  | .string s => s.utf8ByteSize ≤ keyBound && !s.toList.any isBreak
  | .list items => items.isEmpty
  | .mapping entries => entries.isEmpty
  | .tagged _ content => isShortKey content
  | _ => true

mutual

/-- A value whose first line is already indented to its column. -/
def writeAt (column : Nat) : Value → List Char
  | .list items =>
    if items.isEmpty then leafLine column (.list []) else writeItems column true items
  | .mapping entries =>
    if entries.isEmpty then leafLine column (.mapping []) else writeEntries column true entries
  | .tagged _ content => writeAt column content
  | v => leafLine (max column 2) v

/-- A value behind a key that stands at a column. -/
def writeBehindKey (column : Nat) : Value → List Char
  | .list items =>
    if items.isEmpty then ' ' :: leafLine column (.list [])
    else '\n' :: writeItems column false items
  | .mapping entries =>
    if entries.isEmpty then ' ' :: leafLine column (.mapping [])
    else '\n' :: writeEntries (column + 2) false entries
  | .tagged _ content => writeBehindKey column content
  | v => ' ' :: leafLine (column + 2) v

/-- The items of a list; `isIndented` says that the first is indented already. -/
def writeItems (column : Nat) (isIndented : Bool) : List Value → List Char
  | [] => []
  | v :: rest =>
    (if isIndented then [] else spaces column) ++ '-' :: ' ' :: writeAt (column + 2) v
      ++ writeItems column false rest

/-- The entries of a mapping. A key that is not short is marked, and its value on the next line. -/
def writeEntries (column : Nat) (isIndented : Bool) : List (Value × Value) → List Char
  | [] => []
  | (k, v) :: rest =>
    (if isIndented then [] else spaces column)
      ++ (if isShortKey k then (leafLine column k).dropLast ++ ':' :: writeBehindKey column v
        else '?' :: ' ' :: writeAt (column + 2) k ++ spaces column ++ ':' :: ' '
          :: writeAt (column + 2) v)
      ++ writeEntries column false rest

end

def write (v : Value) : String := String.ofList (writeAt 0 v)

end BackupProfiles.Yaml
