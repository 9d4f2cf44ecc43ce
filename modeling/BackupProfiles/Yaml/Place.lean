/-!
# Places in a YAML text

A place is what is left of a text, with the line and column it starts at. A line ends at a carriage
return, a line feed or both, and at three further separators; all but the last two of those are
read as a line feed.
-/

namespace BackupProfiles.Yaml

structure Place where
  rest : List Char
  index : Nat
  line : Nat
  column : Nat
  deriving Repr

def isBlank (c : Char) : Bool := c == ' ' || c == '\t'

def isBreak (c : Char) : Bool :=
  c == '\r' || c == '\n' || c == '\x85' || c == '\u2028' || c == '\u2029'

/-- The character a line break is read as. -/
def breakChar (c : Char) : Char := if c == '\u2028' || c == '\u2029' then c else '\n'

/-- A character of a name: an ASCII letter, a digit, an underscore or a dash. -/
def isNameChar (c : Char) : Bool :=
  ('a' ≤ c && c ≤ 'z') || ('A' ≤ c && c ≤ 'Z') || ('0' ≤ c && c ≤ '9') || c == '-' || c == '_'

/-- Whether a text starts with a blank or a line break, or is at its end. -/
def startsBlank : List Char → Bool
  | [] => true
  | c :: _ => isBlank c || isBreak c

def startsBreak : List Char → Bool
  | [] => true
  | c :: _ => isBreak c

namespace Place

def start (cs : List Char) : Place := ⟨cs, 0, 0, 0⟩

/-- Past a number of characters of a line. -/
def forward (p : Place) (count : Nat) : Place :=
  ⟨p.rest.drop count, p.index + count, p.line, p.column + count⟩

/-- Past the characters of a line that have a property. -/
def skip (p : Place) (has : Char → Bool) : Place := p.forward (p.rest.takeWhile has).length

/-- Past one line break, if there is one. -/
def nextLine (p : Place) : Place :=
  match p.rest with
  | '\r' :: '\n' :: rest => ⟨rest, p.index + 2, p.line + 1, 0⟩
  | c :: rest => if isBreak c then ⟨rest, p.index + 1, p.line + 1, 0⟩ else p
  | [] => p

/-- The break that ends a line, as it is read; nothing at the end of the text. -/
def lineBreak (p : Place) : List Char :=
  match p.rest with
  | c :: _ => if isBreak c then [breakChar c] else []
  | [] => []

/-- Whether a line starts with three given characters and a blank. -/
def isMarked (p : Place) (mark : Char) : Bool :=
  p.column == 0 && p.rest.take 3 == List.replicate 3 mark && startsBlank (p.rest.drop 3)

/-- At a line that starts or ends a document. -/
def atDocumentMark (p : Place) : Bool := p.isMarked '-' || p.isMarked '.'

/-- The end of the line behind blanks and a comment, unless something else stands there. -/
def lineEnd? (p : Place) : Option Place :=
  let p := p.skip isBlank
  let p := if p.rest.head? == some '#' then p.skip (fun c => !isBreak c) else p
  if startsBreak p.rest then some p else none

end Place

end BackupProfiles.Yaml
