import BackupProfiles.Text.Digits

/-!
# Texts in TOML

Blanks, comments, line ends, the four kinds of strings, and keys. Every reader answers what it read
and the rest of the text. A line ends with a line feed, with or without a carriage return before it.
-/

namespace BackupProfiles.Toml

/-- What is read and the rest of the text. -/
abbrev Read (α : Type) := Option (α × List Char)

def isBlank (c : Char) : Bool := c == ' ' || c == '\t'

def skipBlanks (cs : List Char) : List Char := cs.dropWhile isBlank

/-- A character that may stand in a comment or a string: no control character but the tab. -/
def isText (c : Char) : Bool := c == '\t' || (0x20 ≤ c.toNat && c.toNat != 0x7f)

/-- The rest after a line end, if the text starts with one. -/
def afterLineEnd? : List Char → Option (List Char)
  | '\n' :: rest => some rest
  | '\r' :: '\n' :: rest => some rest
  | _ => none

/-- The rest after a comment, if there is one; it stops before the line end. -/
def skipComment : List Char → List Char
  | '#' :: rest => rest.dropWhile isText
  | cs => cs

/-- The rest of a line: blanks, a comment, and the line end or the end of the text. -/
def endLine? (cs : List Char) : Option (List Char) :=
  match skipComment (skipBlanks cs) with
  | [] => some []
  | rest => afterLineEnd? rest

/-- Blanks, comments and line ends between the items of a list; the first argument bounds their
number. -/
def skipLines : Nat → List Char → List Char
  | 0, cs => cs
  | n + 1, cs =>
    let rest := skipComment (skipBlanks cs)
    match afterLineEnd? rest with
    | some after => skipLines n after
    | none => rest

/-- The character that an escape stands for, its backslash already taken. -/
def readEscape? : List Char → Read Char
  | 'b' :: rest => some ('\x08', rest)
  | 't' :: rest => some ('\t', rest)
  | 'n' :: rest => some ('\n', rest)
  | 'f' :: rest => some ('\x0c', rest)
  | 'r' :: rest => some ('\r', rest)
  | '"' :: rest => some ('"', rest)
  | '\\' :: rest => some ('\\', rest)
  | 'u' :: rest => Text.readCode? 4 rest
  | 'U' :: rest => Text.readCode? 8 rest
  | _ => none

/-- The rest of a quoted text of one line; the first argument bounds its length. -/
def readQuoted? : Nat → List Char → Read (List Char)
  | 0, _ => none
  | _, [] => none
  | _ + 1, '"' :: rest => some ([], rest)
  | n + 1, '\\' :: rest =>
    (readEscape? rest).bind fun (c, rest) => (readQuoted? n rest).map fun (cs, rest) => (c :: cs, rest)
  | n + 1, c :: rest =>
    if isText c then (readQuoted? n rest).map fun (cs, rest) => (c :: cs, rest) else none

/-- The rest of a literal text of one line. -/
def readLiteral? (cs : List Char) : Read (List Char) :=
  match cs.dropWhile (· != '\x27') with
  | [] => none
  | _ :: rest =>
    let text := cs.takeWhile (· != '\x27')
    if text.all isText then some (text, rest) else none

/-- What ends a text of several lines: three quotes or more, of which all but three belong to the
text. -/
def closing? (quote : Char) (cs : List Char) : Read (List Char) :=
  let count := (cs.takeWhile (· == quote)).length
  if 3 ≤ count && count ≤ 5 then some (List.replicate (count - 3) quote, cs.drop count) else none

/-- The text after a backslash at the end of a line: blanks and line ends do not count. -/
def skipContinuation? (cs : List Char) : Option (List Char) :=
  (afterLineEnd? (skipBlanks cs)).map fun rest =>
    rest.dropWhile fun c => isBlank c || c == '\n' || c == '\r'

/-- The rest of a text of several lines; only quoted ones know escapes. -/
def readLines? (quote : Char) (escapes : Bool) : Nat → List Char → Read (List Char)
  | 0, _ => none
  | _, [] => none
  | n + 1, c :: rest =>
    let next := fun (c : Char) (rest : List Char) =>
      (readLines? quote escapes n rest).map fun (cs, rest) => (c :: cs, rest)
    match closing? quote (c :: rest) with
    | some (final, rest) => some (final, rest)
    | none =>
      if (c :: rest).take 3 == List.replicate 3 quote then none
      else if escapes && c == '\\' then
        match skipContinuation? rest with
        | some rest => readLines? quote escapes n rest
        | none => (readEscape? rest).bind fun (c, rest) => next c rest
      else
        match afterLineEnd? (c :: rest) with
        | some rest => next '\n' rest
        | none => if isText c then next c rest else none

/-- A line end right after the opening quotes does not count. -/
def skipFirstLineEnd (cs : List Char) : List Char := (afterLineEnd? cs).getD cs

/-- A string of any kind. -/
def readString? (cs : List Char) : Read String :=
  let read := match cs with
    | '"' :: '"' :: '"' :: rest => readLines? '"' true (rest.length + 1) (skipFirstLineEnd rest)
    | '"' :: rest => readQuoted? (rest.length + 1) rest
    | '\x27' :: '\x27' :: '\x27' :: rest =>
      readLines? '\x27' false (rest.length + 1) (skipFirstLineEnd rest)
    | '\x27' :: rest => readLiteral? rest
    | _ => none
  read.map fun (text, rest) => (String.ofList text, rest)

/-- A character of a key without quotes. -/
def isKeyChar (c : Char) : Bool :=
  ('a' ≤ c && c ≤ 'z') || ('A' ≤ c && c ≤ 'Z') || ('0' ≤ c && c ≤ '9') || c == '-' || c == '_'

def readSimpleKey? (cs : List Char) : Read String :=
  let read := match cs with
    | '"' :: rest => readQuoted? (rest.length + 1) rest
    | '\x27' :: rest => readLiteral? rest
    | _ =>
      let key := cs.takeWhile isKeyChar
      if key.isEmpty then none else some (key, cs.dropWhile isKeyChar)
  read.map fun (text, rest) => (String.ofList text, rest)

/-- A key: parts joined by dots, with blanks around them; the first argument bounds their
number. -/
def readKey? : Nat → List Char → Read (List String)
  | 0, _ => none
  | n + 1, cs =>
    (readSimpleKey? (skipBlanks cs)).bind fun (part, rest) =>
      match skipBlanks rest with
      | '.' :: rest => (readKey? n rest).map fun (parts, rest) => (part :: parts, rest)
      | rest => some ([part], rest)

/-- Keys have fewer parts than this, and values nest less deep. -/
def depthBound : Nat := 80

end BackupProfiles.Toml
