import BackupProfiles.Yaml.Text

/-!
# Tokens of YAML

`Token.ofText?` splits a text into its texts, names and marks. Indentation becomes marks too: a
block opens where a column grows and ends where it shrinks. A text is known to be a key only when
its colon is found, so every place where a key may start is kept as a `PendingKey`, and the marks
for it are put in front of it afterwards.
-/

namespace BackupProfiles.Yaml

inductive Token where
  | version (major minor : Nat)
  | handle (name expansion : String)
  | documentStart
  | documentEnd
  | blockList
  | blockMap
  | blockEnd
  | blockItem
  | flowList
  | flowListEnd
  | flowMap
  | flowMapEnd
  | comma
  | key
  | value
  | alias (name : String)
  | anchor (name : String)
  | tag (handle suffix : String)
  | text (isPlain : Bool) (s : String)
  deriving DecidableEq, Repr

/-- A place where a key may have started. -/
structure PendingKey where
  /-- How many tokens stand before it. -/
  position : Nat
  place : Place
  /-- Nothing but a key can stand there. -/
  isRequired : Bool

/-- The tokens found so far and what decides about the next one. -/
structure Tokens where
  place : Place
  /-- The last token first. -/
  found : List Token
  /-- The key that may be pending, inside every open bracket and outside of all; innermost first. -/
  pending : List (Option PendingKey)
  /-- The column of the open block, below zero outside of all. -/
  indent : Int
  /-- The columns of the blocks around it. -/
  outer : List Int
  keyAllowed : Bool

namespace Tokens

def start (p : Place) : Tokens := ⟨p, [], [none], -1, [], true⟩

def inFlow (t : Tokens) : Bool := 1 < t.pending.length

def push (t : Tokens) (token : Token) : Tokens := { t with found := token :: t.found }

def atPlace (t : Tokens) (p : Place) : Tokens := { t with place := p }

def allowKey (t : Tokens) (allowed : Bool) : Tokens := { t with keyAllowed := allowed }

def pendingKey? (t : Tokens) : Option PendingKey := t.pending.head?.join

def setPending (t : Tokens) (key : Option PendingKey) : Tokens :=
  { t with pending := key :: t.pending.drop 1 }

/-- Gives up the pending key; one that is required is missed. -/
def dropKey? (t : Tokens) : Option Tokens :=
  if t.pendingKey?.any (·.isRequired) then none else some (t.setPending none)

/-- Notes that a key may start here. -/
def noteKey? (t : Tokens) : Option Tokens :=
  if t.keyAllowed then
    t.dropKey?.map fun t => t.setPending
      (some ⟨t.found.length, t.place, !t.inFlow && t.indent == t.place.column⟩)
  else some t

/-- How far behind its start the colon of a key may stand. -/
def keyBound : Nat := 1024

/-- A key ends on the line it starts on and is not too long. -/
def isStale (here : Place) (key : PendingKey) : Bool :=
  key.place.line < here.line || key.place.index + keyBound < here.index

def dropStale? (t : Tokens) : Option Tokens :=
  if t.pending.any fun key => key.any fun key => isStale t.place key && key.isRequired then none
  else some { t with pending := t.pending.map fun key => key.filter fun key => !isStale t.place key }

/-- Ends the blocks that are indented deeper than a column. -/
def closeTo (column indent : Int) (found : List Token) : List Int → Int × List Int × List Token
  | [] => (indent, [], found)
  | next :: outer =>
    if column < indent then closeTo column next (.blockEnd :: found) outer
    else (indent, next :: outer, found)

def unindent (t : Tokens) (column : Int) : Tokens :=
  if t.inFlow then t
  else
    let (indent, outer, found) := closeTo column t.indent t.found t.outer
    { t with indent := indent, outer := outer, found := found }

/-- Opens a block at a column that lies deeper; its mark goes behind the first `position` tokens. -/
def indentTo (t : Tokens) (column : Nat) (position : Nat) (mark : Token) : Tokens :=
  if !t.inFlow && t.indent < column then
    let (later, earlier) := t.found.splitAt (t.found.length - position)
    { t with found := later ++ mark :: earlier, indent := column, outer := t.indent :: t.outer }
  else t

/-- Closes everything, as at the end of a document. -/
def closeAll? (t : Tokens) : Option Tokens :=
  (t.unindent (-1)).dropKey?.map (·.allowKey false)

/-- A mark of some characters. -/
def mark (t : Tokens) (token : Token) (count : Nat) : Tokens :=
  (t.push token).atPlace (t.place.forward count)

/-- Blanks, comments and line ends. A line end allows a key, but not in brackets; a tab may not
stand where a key is allowed. -/
def skipSpace : Nat → Tokens → Tokens
  | 0, t => t
  | steps + 1, t =>
    let p := t.place.skip fun c => c == ' ' || (c == '\t' && (t.inFlow || !t.keyAllowed))
    let p := if p.rest.head? == some '#' then p.skip (fun c => !isBreak c) else p
    if p.lineBreak.isEmpty then t.atPlace p
    else skipSpace steps ((t.atPlace p.nextLine).allowKey (t.keyAllowed || !t.inFlow))

/-- The number of a version, at most nine digits. -/
def readVersionNumber? (cs : List Char) : Option (Nat × List Char) :=
  let digits := cs.takeWhile (Text.isDigitIn 10)
  if 9 < digits.length then none
  else (Text.readNat? digits).map (·, cs.drop digits.length)

/-- A byte written with a percent sign and two hexadecimal digits. -/
def readByte? : List Char → Option (UInt8 × List Char)
  | '%' :: a :: b :: rest => (Text.readNatIn? 16 [a, b]).map fun n => (n.toUInt8, rest)
  | _ => none

/-- The text of a run of escaped bytes, and what follows it. -/
def readBytes? : Nat → ByteArray → List Char → Option (List Char × List Char)
  | 0, _, _ => none
  | steps + 1, bytes, cs =>
    if cs.head? == some '%' then
      (readByte? cs).bind fun (byte, rest) => readBytes? steps (bytes.push byte) rest
    else (String.fromUTF8? bytes).map fun s => (s.toList, cs)

def isUriChar (isVerbatim : Bool) (c : Char) : Bool :=
  isNameChar c || ";/?:@&=+$.!~*\x27()%".toList.contains c
    || (isVerbatim && (c == ',' || c == '[' || c == ']'))

/-- The characters of a tag up to one that cannot stand in it. -/
def readUri? (isVerbatim : Bool) : Nat → List Char → Option (List Char × List Char)
  | 0, _ => none
  | _ + 1, [] => some ([], [])
  | steps + 1, c :: rest =>
    if c == '%' then do
      let (front, rest) ← readBytes? (rest.length + 2) .empty (c :: rest)
      let (more, rest) ← readUri? isVerbatim steps rest
      some (front ++ more, rest)
    else if isUriChar isVerbatim c then
      (readUri? isVerbatim steps rest).map fun (more, rest) => (c :: more, rest)
    else some ([], c :: rest)

/-- A tag's handle: an exclamation mark, a name, and a second mark if there is one. -/
def readHandle (cs : List Char) : List Char × List Char :=
  let name := (cs.drop 1).takeWhile isNameChar
  let rest := cs.drop (name.length + 1)
  if rest.head? == some '!' then ('!' :: name ++ ['!'], rest.drop 1) else ('!' :: name, rest)

/-- A tag: its handle, its suffix and the rest. A verbatim tag and the single mark have no handle. -/
def readTag? (cs : List Char) : Option (List Char × List Char × List Char) :=
  match cs with
  | '!' :: '<' :: rest => do
    let (uri, rest) ← readUri? true (rest.length + 1) rest
    if uri.isEmpty || rest.head? != some '>' then none else some ([], uri, rest.drop 1)
  | _ => do
    let (handle, rest) := readHandle cs
    let (uri, rest) ← readUri? false (rest.length + 1) rest
    if 1 < handle.length && handle.getLast? == some '!' then
      if uri.isEmpty then none else some (handle, uri, rest)
    else
      let suffix := handle.drop 1 ++ uri
      some (if suffix.isEmpty then ([], ['!'], rest) else (['!'], suffix, rest))

/-- What a line for the reader says, its name already taken. -/
def readDirective? (name : String) (cs : List Char) : Option (Token × List Char) :=
  let cs := cs.dropWhile isBlank
  match name with
  | "YAML" => do
    let (major, rest) ← readVersionNumber? cs
    if rest.head? != some '.' then none
    else
      let (minor, rest) ← readVersionNumber? (rest.drop 1)
      some (.version major minor, rest)
  | "TAG" => do
    if cs.head? != some '!' then none
    else
      let (handle, rest) := readHandle cs
      let isHandle := handle.length == 1 || handle.getLast? == some '!'
      if !isHandle || !rest.head?.any isBlank then none
      else
        let rest := rest.dropWhile isBlank
        let (uri, rest) ← readUri? true (rest.length + 1) rest
        if uri.isEmpty || !startsBlank rest then none
        else some (.handle (String.ofList handle) (String.ofList uri), rest)
  | _ => none

def directive? (t : Tokens) : Option Tokens := do
  let t ← t.closeAll?
  let p := t.place.forward 1
  let name := p.rest.takeWhile isNameChar
  let rest := p.rest.drop name.length
  if !startsBlank rest then none
  else
    let (token, rest) ← readDirective? (String.ofList name) rest
    let p ← (p.forward (p.rest.length - rest.length)).lineEnd?
    some ((t.push token).atPlace p.nextLine)

def documentMark? (t : Tokens) (token : Token) : Option Tokens :=
  t.closeAll?.map (·.mark token 3)

def openBracket? (t : Tokens) (token : Token) : Option Tokens :=
  t.noteKey?.map fun t => ({ t with pending := none :: t.pending }.allowKey true).mark token 1

def closeBracket? (t : Tokens) (token : Token) : Option Tokens :=
  t.dropKey?.map fun t =>
    ({ t with pending := if t.inFlow then t.pending.drop 1 else t.pending }.allowKey false).mark token 1

def comma? (t : Tokens) : Option Tokens := t.dropKey?.map fun t => (t.allowKey true).mark .comma 1

/-- A dash before an item of a block. -/
def blockItem? (t : Tokens) : Option Tokens :=
  if !t.inFlow && !t.keyAllowed then none
  else
    let t := t.indentTo t.place.column t.found.length .blockList
    t.dropKey?.map fun t => (t.allowKey true).mark .blockItem 1

/-- A question mark before a key. -/
def key? (t : Tokens) : Option Tokens :=
  if !t.inFlow && !t.keyAllowed then none
  else
    let t := t.indentTo t.place.column t.found.length .blockMap
    t.dropKey?.map fun t => (t.allowKey !t.inFlow).mark .key 1

/-- A colon. It makes a key of what is pending, or else stands behind a key of its own line. -/
def value? (t : Tokens) : Option Tokens :=
  match t.pendingKey? with
  | some key =>
    let (later, earlier) := t.found.splitAt (t.found.length - key.position)
    let t := { t with found := later ++ Token.key :: earlier }
    let t := (t.indentTo key.place.column key.position .blockMap).setPending none
    some ((t.allowKey false).mark .value 1)
  | none =>
    if !t.inFlow && !t.keyAllowed then none
    else
      let t := t.indentTo t.place.column t.found.length .blockMap
      some ((t.allowKey !t.inFlow).mark .value 1)

/-- An alias or an anchor. -/
def name? (t : Tokens) (token : String → Token) : Option Tokens :=
  t.noteKey?.bind fun t =>
    let name := (t.place.rest.drop 1).takeWhile isNameChar
    let rest := t.place.rest.drop (name.length + 1)
    if name.isEmpty then none
    else if startsBlank rest || rest.head?.any (fun c => "?:,]\x7d%@\x60".toList.contains c) then
      some ((t.allowKey false).mark (token (String.ofList name)) (name.length + 1))
    else none

def tag? (t : Tokens) : Option Tokens := do
  let t ← t.noteKey?
  let (handle, suffix, rest) ← readTag? t.place.rest
  if startsBlank rest || (t.inFlow && rest.head? == some ',') then
    let token := Token.tag (String.ofList handle) (String.ofList suffix)
    some ((t.allowKey false).mark token (t.place.rest.length - rest.length))
  else none

def quoted? (t : Tokens) (read? : Nat → Place → Option (List Char × Place)) : Option Tokens := do
  let t ← t.noteKey?
  let (cs, p) ← read? (t.place.rest.length + 1) (t.place.forward 1)
  some (((t.allowKey false).push (.text false (String.ofList cs))).atPlace p)

def block? (t : Tokens) (isFolded : Bool) : Option Tokens := do
  let t ← t.dropKey?
  let (cs, p) ← readBlock? isFolded t.indent t.place
  some (((t.allowKey true).push (.text false (String.ofList cs))).atPlace p)

def plain? (t : Tokens) : Option Tokens := do
  let t ← t.noteKey?
  let read ← readPlain? t.inFlow (t.indent + 1).toNat (t.place.rest.length + 1) {} t.place
  some (((t.allowKey read.endsLine).push (.text true (String.ofList read.chars))).atPlace read.place)

/-- Whether a plain text may start with these characters. -/
def startsPlain (inFlow : Bool) : List Char → Bool
  | [] => false
  | c :: rest =>
    (!isBlank c && !isBreak c && !"-?:,[]\x7b\x7d#&*!|>\x27\"%@\x60".toList.contains c)
      || (c == '-' && !rest.head?.any isBlank)
      || (!inFlow && (c == '?' || c == ':') && !startsBlank rest)

/-- The next token, at a character that starts one. -/
def next? (t : Tokens) (c : Char) (rest : List Char) : Option Tokens :=
  if t.place.column == 0 && c == '%' then t.directive?
  else if t.place.isMarked '-' then t.documentMark? .documentStart
  else if t.place.isMarked '.' then t.documentMark? .documentEnd
  else if c == '-' && startsBlank rest then t.blockItem?
  else if c == '?' && (t.inFlow || startsBlank rest) then t.key?
  else if c == ':' && (t.inFlow || startsBlank rest) then t.value?
  else match c with
    | '[' => t.openBracket? .flowList
    | '\x7b' => t.openBracket? .flowMap
    | ']' => t.closeBracket? .flowListEnd
    | '\x7d' => t.closeBracket? .flowMapEnd
    | ',' => t.comma?
    | '*' => t.name? .alias
    | '&' => t.name? .anchor
    | '!' => t.tag?
    | '\x27' => t.quoted? readSingle?
    | '"' => t.quoted? readDouble?
    | _ =>
      if c == '|' && !t.inFlow then t.block? false
      else if c == '>' && !t.inFlow then t.block? true
      else if startsPlain t.inFlow (c :: rest) then t.plain?
      else none

/-- Reads tokens to the end of the text. -/
def readAll? : Nat → Tokens → Option Tokens
  | 0, _ => none
  | steps + 1, t => do
    let t ← (skipSpace (t.place.rest.length + 1) t).dropStale?
    let t := t.unindent t.place.column
    match t.place.rest with
    | [] => t.closeAll?
    | c :: rest => readAll? steps (← t.next? c rest)

end Tokens

/-- A character that may stand in a YAML text. -/
def isAllowed (c : Char) : Bool :=
  let n := c.toNat
  n == 0x9 || n == 0xa || n == 0xd || (0x20 ≤ n && n ≤ 0x7e) || n == 0x85
    || (0xa0 ≤ n && n ≤ 0xfffd) || 0x10000 ≤ n

/-- The tokens of a text; a mark of the byte order in front does not count. -/
def Token.ofText? (text : String) : Option (List Token) :=
  let cs := match text.toList with
    | '\ufeff' :: rest => rest
    | cs => cs
  if cs.all isAllowed then
    (Tokens.readAll? (cs.length + 1) (.start (.start cs))).map fun t => t.found.reverse
  else none

end BackupProfiles.Yaml
