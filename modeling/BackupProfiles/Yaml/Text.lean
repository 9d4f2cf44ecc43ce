import BackupProfiles.Text.Digits
import BackupProfiles.Yaml.Place

/-!
# Texts in YAML

A text is written plain, in single or double quotes, or as a block of lines. In the first three a
line break stands for a space, and each break after it for itself. The first argument of a reader
that repeats itself bounds the number of steps.
-/

namespace BackupProfiles.Yaml

/-- The blanks and breaks between two words of a text. -/
structure Gap where
  blanks : List Char := []
  /-- Whether the line ended in the gap. -/
  isBroken : Bool := false
  firstBreak : List Char := []
  moreBreaks : List Char := []

namespace Gap

/-- A line feed is folded to a space, or to nothing if further breaks follow. -/
def folded (firstBreak moreBreaks : List Char) : List Char :=
  if firstBreak == ['\n'] then (if moreBreaks.isEmpty then [' '] else moreBreaks)
  else firstBreak ++ moreBreaks

def text (g : Gap) : List Char :=
  if g.isBroken then folded g.firstBreak g.moreBreaks else g.blanks

def addBlank (g : Gap) (c : Char) : Gap :=
  if g.isBroken then g else { g with blanks := g.blanks ++ [c] }

def addBreak (g : Gap) (cs : List Char) : Gap :=
  if g.isBroken then { g with moreBreaks := g.moreBreaks ++ cs }
  else { g with blanks := [], isBroken := true, firstBreak := cs }

/-- Reads a gap to its end. A tab may not stand where a line is indented. -/
def read? (indent : Nat) : Nat → Gap → Place → Option (Gap × Place)
  | 0, _, _ => none
  | steps + 1, g, p =>
    match p.rest with
    | [] => some (g, p)
    | c :: _ =>
      if isBlank c then
        if g.isBroken && c == '\t' && p.column < indent then none
        else read? indent steps (g.addBlank c) (p.forward 1)
      else if isBreak c then read? indent steps (g.addBreak p.lineBreak) p.nextLine
      else some (g, p)

end Gap

/-- The brackets and the comma, which are marks of their own inside brackets. -/
def isFlowMark (c : Char) : Bool := c == ',' || c == '[' || c == ']' || c == '\x7b' || c == '\x7d'

/-- The characters of a plain text up to a blank or to the mark that ends the text. -/
def plainWord? (inFlow : Bool) : List Char → Option (List Char)
  | [] => some []
  | c :: rest =>
    if startsBlank (c :: rest) then some []
    else if inFlow && c == ':' && rest.head?.any (fun d => isFlowMark d || d == '?') then none
    else if (c == ':' && startsBlank rest) || (inFlow && isFlowMark c) then some []
    else (plainWord? inFlow rest).map (c :: ·)

/-- A text as it was found, whether a line ended right behind it, and the place after that. -/
structure Plain where
  chars : List Char
  endsLine : Bool
  place : Place

/-- The rest of a plain text behind a gap; outside of brackets its lines are indented. -/
def readPlain? (inFlow : Bool) (indent : Nat) : Nat → Gap → Place → Option Plain
  | 0, _, _ => none
  | steps + 1, gap, p =>
    if p.atDocumentMark || p.rest.head? == some '#' then some ⟨[], gap.isBroken, p⟩
    else do
      let word ← plainWord? inFlow p.rest
      let q := p.forward word.length
      if word.isEmpty then some ⟨[], gap.isBroken, q⟩
      else if q.rest.isEmpty || !startsBlank q.rest then some ⟨gap.text ++ word, false, q⟩
      else
        let (next, q) ← Gap.read? indent (q.rest.length + 1) {} q
        if !inFlow && q.column < indent then some ⟨gap.text ++ word, next.isBroken, q⟩
        else
          let more ← readPlain? inFlow indent steps next q
          some { more with chars := gap.text ++ word ++ more.chars }

/-- The character of an escape, its backslash already taken, and how many characters it has. -/
def readEscape? : List Char → Option (Char × Nat)
  | '0' :: _ => some ('\x00', 1)
  | 'a' :: _ => some ('\x07', 1)
  | 'b' :: _ => some ('\x08', 1)
  | 't' :: _ => some ('\t', 1)
  | '\t' :: _ => some ('\t', 1)
  | 'n' :: _ => some ('\n', 1)
  | 'v' :: _ => some ('\x0b', 1)
  | 'f' :: _ => some ('\x0c', 1)
  | 'r' :: _ => some ('\r', 1)
  | 'e' :: _ => some ('\x1b', 1)
  | ' ' :: _ => some (' ', 1)
  | '"' :: _ => some ('"', 1)
  | '/' :: _ => some ('/', 1)
  | '\\' :: _ => some ('\\', 1)
  | 'N' :: _ => some ('\x85', 1)
  | '_' :: _ => some ('\xa0', 1)
  | 'L' :: _ => some ('\u2028', 1)
  | 'P' :: _ => some ('\u2029', 1)
  | 'x' :: rest => (Text.readCode? 2 rest).map fun (c, _) => (c, 3)
  | 'u' :: rest => (Text.readCode? 4 rest).map fun (c, _) => (c, 5)
  | 'U' :: rest => (Text.readCode? 8 rest).map fun (c, _) => (c, 9)
  | _ => none

/-- The rest of a text in double quotes. -/
def readDouble? : Nat → Place → Option (List Char × Place)
  | 0, _ => none
  | steps + 1, p =>
    let beyond := fun (front : List Char) (q : Place) =>
      (readDouble? steps q).map fun (cs, q) => (front ++ cs, q)
    if p.atDocumentMark then none
    else match p.rest with
      | [] => none
      | '"' :: _ => some ([], p.forward 1)
      | '\\' :: rest =>
        if !rest.isEmpty && startsBreak rest then do
          let p := (p.forward 1).nextLine
          let (gap, q) ← Gap.read? 0 (p.rest.length + 1) { isBroken := true } p
          beyond gap.text q
        else do
          let (c, count) ← readEscape? rest
          beyond [c] (p.forward (count + 1))
      | c :: _ =>
        if startsBlank p.rest then do
          let (gap, q) ← Gap.read? 0 (p.rest.length + 1) {} p
          beyond gap.text q
        else beyond [c] (p.forward 1)

/-- The rest of a text in single quotes; two of them stand for one. -/
def readSingle? : Nat → Place → Option (List Char × Place)
  | 0, _ => none
  | steps + 1, p =>
    let beyond := fun (front : List Char) (q : Place) =>
      (readSingle? steps q).map fun (cs, q) => (front ++ cs, q)
    if p.atDocumentMark then none
    else match p.rest with
      | [] => none
      | '\x27' :: '\x27' :: _ => beyond ['\x27'] (p.forward 2)
      | '\x27' :: _ => some ([], p.forward 1)
      | c :: _ =>
        if startsBlank p.rest then do
          let (gap, q) ← Gap.read? 0 (p.rest.length + 1) {} p
          beyond gap.text q
        else beyond [c] (p.forward 1)

/-- What becomes of the line breaks at the end of a block. -/
inductive Chomp where
  | strip
  | clip
  | keep
  deriving DecidableEq, Repr

namespace Block

structure Header where
  chomp : Chomp
  /-- The indentation as it is stated, if it is. -/
  increment : Option Nat

def chomp? : List Char → Option Chomp
  | '+' :: _ => some .keep
  | '-' :: _ => some .strip
  | _ => none

def increment? : List Char → Option Nat
  | c :: _ => Text.digit? 10 c
  | [] => none

/-- The marks after a block's sign, in either order, and how many there are. -/
def readHeader? (cs : List Char) : Option (Header × Nat) :=
  let read : Header × Nat := match chomp? cs with
    | some chomp =>
      match increment? (cs.drop 1) with
      | some n => (⟨chomp, some n⟩, 2)
      | none => (⟨chomp, none⟩, 1)
    | none =>
      match increment? cs with
      | some n =>
        match chomp? (cs.drop 1) with
        | some chomp => (⟨chomp, some n⟩, 2)
        | none => (⟨.clip, some n⟩, 1)
      | none => (⟨.clip, none⟩, 0)
  if read.1.increment == some 0 then none else some read

/-- The empty lines of a block, and the greatest column seen. Without a known indentation every
space counts to it. -/
def readBreaks? (indent : Option Nat) :
    Nat → Nat → List Char → Place → Option (Nat × List Char × Place)
  | 0, _, _, _ => none
  | steps + 1, greatest, breaks, p =>
    let spaces := (p.rest.takeWhile (· == ' ')).length
    let q := p.forward (match indent with
      | none => spaces
      | some n => min spaces (n - p.column))
    let greatest := max greatest q.column
    if q.rest.head? == some '\t' && indent.all (q.column < ·) then none
    else if q.lineBreak.isEmpty then some (greatest, breaks, q)
    else readBreaks? indent steps greatest (breaks ++ q.lineBreak) q.nextLine

/-- The lines of a block, with the breaks that stand before the next of them. -/
def readLines? (isFolded : Bool) (chomp : Chomp) (indent : Nat) :
    Nat → (afterBlank : Bool) → List Char → List Char → Place → Option (List Char × Place)
  | 0, _, _, _, _ => none
  | steps + 1, afterBlank, firstBreak, moreBreaks, p =>
    if p.column == indent && !p.rest.isEmpty then do
      let onBlank := p.rest.head?.any isBlank
      let between :=
        if isFolded && firstBreak == ['\n'] && !afterBlank && !onBlank then
          Gap.folded firstBreak moreBreaks
        else firstBreak ++ moreBreaks
      let line := p.rest.takeWhile fun c => !isBreak c
      let q := p.forward line.length
      let next := q.nextLine
      let (_, breaks, r) ← readBreaks? (some indent) (next.rest.length + 1) 0 [] next
      let (more, r) ← readLines? isFolded chomp indent steps onBlank q.lineBreak breaks r
      some (between ++ line ++ more, r)
    else
      let tail := match chomp with
        | .strip => []
        | .clip => firstBreak
        | .keep => firstBreak ++ moreBreaks
      some (tail, p)

end Block

/-- A block of lines from its sign on, where lines around it are indented to `parent`. -/
def readBlock? (isFolded : Bool) (parent : Int) (p : Place) : Option (List Char × Place) := do
  let p := p.forward 1
  let (header, count) ← Block.readHeader? p.rest
  let p ← (p.forward count).lineEnd?
  let p := p.nextLine
  let steps := p.rest.length + 1
  let stated := header.increment.map fun n => (max parent 0).toNat + n
  let (greatest, breaks, p) ← Block.readBreaks? stated steps 0 [] p
  let indent := stated.getD (max greatest (max (parent + 1).toNat 1))
  Block.readLines? isFolded header.chomp indent steps false [] breaks p

end BackupProfiles.Yaml
