import BackupProfiles.Yaml.Token

/-!
# Nodes of a YAML document

`Node.ofTokens?` reads the one document of a text. Anchors and aliases go by numbers: an anchor's
number is how many names stand before it, and an alias has the number its name has at that place.
The first argument of a reader that repeats itself bounds the number of steps.
-/

namespace BackupProfiles.Yaml

inductive Node where
  | text (tag : Option String) (isPlain : Bool) (s : String)
  | list (tag : Option String) (items : List Node)
  | map (tag : Option String) (entries : List (Node × Node))
  | alias (number : Nat)
  | anchored (number : Nat) (content : Node)
  deriving Inhabited

namespace Node

/-- The node where nothing is written. -/
def empty : Node := text none true ""

/-- The tokens left and the names of the anchors so far with their numbers. -/
structure Source where
  tokens : List Token
  names : List (String × Nat)

def Source.atTokens (src : Source) (tokens : List Token) : Source := { src with tokens := tokens }

/-- Gives a name the next number; a name that is used again loses its old one. -/
def Source.number (src : Source) (name : String) : Nat × Source :=
  let number := src.names.length
  let others := src.names.filter fun e => e.1 != name
  (number, { src with names := (name, number) :: others })

/-- What may stand in front of a node. -/
structure Properties where
  anchor : Option String
  tag : Option (String × String)

def readProperties : List Token → Properties × List Token
  | .anchor name :: .tag handle suffix :: rest => (⟨some name, some (handle, suffix)⟩, rest)
  | .tag handle suffix :: .anchor name :: rest => (⟨some name, some (handle, suffix)⟩, rest)
  | .anchor name :: rest => (⟨some name, none⟩, rest)
  | .tag handle suffix :: rest => (⟨none, some (handle, suffix)⟩, rest)
  | rest => (⟨none, none⟩, rest)

/-- The full tag of a handle and a suffix. -/
def expandTag? (handles : List (String × String)) (handle suffix : String) : Option String :=
  if handle.isEmpty then some suffix else (handles.lookup handle).map (· ++ suffix)

/-- A single mark on a text says no more than that the text stands there. -/
def textWith (tag : Option String) (isPlain : Bool) (s : String) : Node :=
  text (tag.filter (· != "!")) isPlain s

/-- Whether an item of a block list is left out. -/
def omitsItem : List Token → Bool
  | .blockItem :: _ | .blockEnd :: _ => true
  | _ => false

/-- Whether a key or a value of a block map is left out. -/
def omitsPart : List Token → Bool
  | .key :: _ | .value :: _ | .blockEnd :: _ => true
  | _ => false

def omitsFlowKey : List Token → Bool
  | .value :: _ | .comma :: _ | .flowListEnd :: _ => true
  | _ => false

def omitsFlowValue : List Token → Bool
  | .comma :: _ | .flowListEnd :: _ => true
  | _ => false

def omitsMapKey : List Token → Bool
  | .value :: _ | .comma :: _ | .flowMapEnd :: _ => true
  | _ => false

def omitsMapValue : List Token → Bool
  | .comma :: _ | .flowMapEnd :: _ => true
  | _ => false

/-- The rest behind the comma that all parts but the first need. -/
def afterComma? (isFirst : Bool) : List Token → Option (List Token)
  | .comma :: rest => if isFirst then some (.comma :: rest) else some rest
  | rest => if isFirst then some rest else none

section Readers

variable (handles : List (String × String))

mutual

/-- A node; blocks stand only where `inBlock` is set, and `unindented` allows the items of a list
where a map's value is expected. -/
def readNode? (inBlock unindented : Bool) : Nat → Source → Option (Node × Source)
  | 0, _ => none
  | steps + 1, src =>
    match src.tokens with
    | .alias name :: rest => (src.names.lookup name).map fun n => (.alias n, src.atTokens rest)
    | tokens => do
      let (properties, rest) := readProperties tokens
      let tag ← match properties.tag with
        | some (handle, suffix) => (expandTag? handles handle suffix).map some
        | none => some none
      match properties.anchor with
      | none => readContent? inBlock unindented tag tag.isNone steps (src.atTokens rest)
      | some name =>
        let (number, src) := src.number name
        let (node, src) ← readContent? inBlock unindented tag false steps (src.atTokens rest)
        some (.anchored number node, src)

/-- A node behind its properties; without any, something has to be written. -/
def readContent? (inBlock unindented : Bool) (tag : Option String) (isNeeded : Bool) :
    Nat → Source → Option (Node × Source)
  | 0, _ => none
  | steps + 1, src =>
    let other : Option (Node × Source) := if isNeeded then none else some (.text tag true "", src)
    match src.tokens with
    | .text isPlain s :: rest => some (textWith tag isPlain s, src.atTokens rest)
    | .flowList :: rest =>
      (readFlowItems? true steps (src.atTokens rest)).map fun (items, src) => (.list tag items, src)
    | .flowMap :: rest =>
      (readFlowEntries? true steps (src.atTokens rest)).map fun (entries, src) =>
        (.map tag entries, src)
    | .blockItem :: _ =>
      if unindented then
        (readUnindented? steps src).map fun (items, src) => (.list tag items, src)
      else other
    | .blockList :: rest =>
      if inBlock then
        (readItems? steps (src.atTokens rest)).map fun (items, src) => (.list tag items, src)
      else other
    | .blockMap :: rest =>
      if inBlock then
        (readEntries? steps (src.atTokens rest)).map fun (entries, src) => (.map tag entries, src)
      else other
    | _ => other

/-- A part of a list or map, or nothing where it is left out. -/
def readPart? (inBlock unindented isOmitted : Bool) : Nat → Source → Option (Node × Source)
  | 0, _ => none
  | steps + 1, src =>
    if isOmitted then some (empty, src) else readNode? inBlock unindented steps src

/-- The items of a block list, up to its end. -/
def readItems? : Nat → Source → Option (List Node × Source)
  | 0, _ => none
  | steps + 1, src =>
    match src.tokens with
    | .blockItem :: rest => do
      let (item, src) ← readPart? true false (omitsItem rest) steps (src.atTokens rest)
      let (items, src) ← readItems? steps src
      some (item :: items, src)
    | .blockEnd :: rest => some ([], src.atTokens rest)
    | _ => none

/-- The items of a list that is not indented below its key. -/
def readUnindented? : Nat → Source → Option (List Node × Source)
  | 0, _ => none
  | steps + 1, src =>
    match src.tokens with
    | .blockItem :: rest => do
      let isOmitted := omitsItem rest || omitsPart rest
      let (item, src) ← readPart? true false isOmitted steps (src.atTokens rest)
      let (items, src) ← readUnindented? steps src
      some (item :: items, src)
    | _ => some ([], src)

/-- The entries of a block map, up to its end. -/
def readEntries? : Nat → Source → Option (List (Node × Node) × Source)
  | 0, _ => none
  | steps + 1, src =>
    match src.tokens with
    | .key :: rest => do
      let (key, src) ← readPart? true true (omitsPart rest) steps (src.atTokens rest)
      let (value, src) ← match src.tokens with
        | .value :: rest => readPart? true true (omitsPart rest) steps (src.atTokens rest)
        | _ => some (empty, src)
      let (entries, src) ← readEntries? steps src
      some ((key, value) :: entries, src)
    | .blockEnd :: rest => some ([], src.atTokens rest)
    | _ => none

/-- The items of a list in brackets. An item that is a key makes a map of one entry. -/
def readFlowItems? (isFirst : Bool) : Nat → Source → Option (List Node × Source)
  | 0, _ => none
  | steps + 1, src =>
    match src.tokens with
    | .flowListEnd :: rest => some ([], src.atTokens rest)
    | tokens => do
      match ← afterComma? isFirst tokens with
      | .flowListEnd :: rest => some ([], src.atTokens rest)
      | .key :: rest =>
        let (pair, src) ← readPair? steps (src.atTokens rest)
        let (items, src) ← readFlowItems? false steps src
        some (.map none [pair] :: items, src)
      | rest =>
        let (item, src) ← readNode? false false steps (src.atTokens rest)
        let (items, src) ← readFlowItems? false steps src
        some (item :: items, src)

/-- The one entry of a map inside brackets, the mark of its key already taken. A key that is left
out takes the mark behind it along. -/
def readPair? : Nat → Source → Option ((Node × Node) × Source)
  | 0, _ => none
  | steps + 1, src => do
    let (key, src) ←
      if omitsFlowKey src.tokens then some (empty, src.atTokens (src.tokens.drop 1))
      else readNode? false false steps src
    match src.tokens with
    | .value :: rest =>
      let (value, src) ← readPart? false false (omitsFlowValue rest) steps (src.atTokens rest)
      some ((key, value), src)
    | _ => some ((key, empty), src)

/-- The entries of a map in braces. -/
def readFlowEntries? (isFirst : Bool) : Nat → Source → Option (List (Node × Node) × Source)
  | 0, _ => none
  | steps + 1, src =>
    match src.tokens with
    | .flowMapEnd :: rest => some ([], src.atTokens rest)
    | tokens => do
      match ← afterComma? isFirst tokens with
      | .flowMapEnd :: rest => some ([], src.atTokens rest)
      | .key :: rest =>
        let (key, src) ← readPart? false false (omitsMapKey rest) steps (src.atTokens rest)
        let (value, src) ← match src.tokens with
          | .value :: rest => readPart? false false (omitsMapValue rest) steps (src.atTokens rest)
          | _ => some (empty, src)
        let (entries, src) ← readFlowEntries? false steps src
        some ((key, value) :: entries, src)
      | rest =>
        let (key, src) ← readNode? false false steps (src.atTokens rest)
        let (entries, src) ← readFlowEntries? false steps src
        some ((key, empty) :: entries, src)

end

end Readers

/-- The handles every document knows. -/
def usualHandles : List (String × String) := [("!", "!"), ("!!", "tag:yaml.org,2002:")]

/-- The lines for the reader in front of a document: handles so far, and whether a version was
given. Neither may be given twice. -/
def readDirectives? (handles : List (String × String)) (versioned : Bool) :
    List Token → Option (List (String × String) × List Token)
  | .version major minor :: rest =>
    if versioned || major != 1 || (minor != 1 && minor != 2) then none
    else readDirectives? handles true rest
  | .handle name expansion :: rest =>
    if (handles.lookup name).isSome then none
    else readDirectives? ((name, expansion) :: handles) versioned rest
  | .documentStart :: rest => some (handles, rest)
  | _ => none

/-- Whether a document has nothing in it. -/
def isEmptyDocument : List Token → Bool
  | [] => true
  | .version _ _ :: _ | .handle _ _ :: _ | .documentStart :: _ | .documentEnd :: _ => true
  | _ => false

/-- The handles of a document and its tokens. -/
def readStart? (tokens : List Token) : Option (List (String × String) × List Token) :=
  match tokens with
  | .version _ _ :: _ | .handle _ _ :: _ | .documentStart :: _ => readDirectives? [] false tokens
  | .documentEnd :: _ => none
  | _ => some ([], tokens)

/-- The only document among some tokens. -/
def ofTokens? (tokens : List Token) : Option Node := do
  let (handles, rest) ← readStart? tokens
  let (node, src) ←
    if isEmptyDocument rest then some (empty, ⟨rest, []⟩)
    else readNode? (handles ++ usualHandles) true false (4 * rest.length + 4) ⟨rest, []⟩
  if src.tokens.all (· == .documentEnd) then some node else none

end Node

end BackupProfiles.Yaml
