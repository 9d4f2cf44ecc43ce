import BackupProfiles.Yaml.Node
import BackupProfiles.Yaml.Scalar

/-!
# Reading YAML

`read?` takes a whole text and answers the value of its document. A tag of the document's own stays
on its value; other tags only say how a text is read. An alias stands for a copy of the node whose
anchor has its number; the number of copies and the nesting are bounded.
-/

namespace BackupProfiles.Yaml

namespace Node

mutual

/-- How many parts a node has; a list or map counts its two ends. -/
def size : Node → Nat
  | .text _ _ _ => 1
  | .alias _ => 1
  | .list _ items => 2 + sizeOfItems items
  | .map _ entries => 2 + sizeOfEntries entries
  | .anchored _ content => content.size

def sizeOfItems : List Node → Nat
  | [] => 0
  | n :: rest => n.size + sizeOfItems rest

def sizeOfEntries : List (Node × Node) → Nat
  | [] => 0
  | (k, v) :: rest => k.size + v.size + sizeOfEntries rest

end

mutual

/-- The nodes that have an anchor, by number, in document order. -/
def targets : Node → List (Nat × Node)
  | .anchored number content => (number, content) :: content.targets
  | .list _ items => targetsOfItems items
  | .map _ entries => targetsOfEntries entries
  | _ => []

def targetsOfItems : List Node → List (Nat × Node)
  | [] => []
  | n :: rest => n.targets ++ targetsOfItems rest

def targetsOfEntries : List (Node × Node) → List (Nat × Node)
  | [] => []
  | (k, v) :: rest => k.targets ++ v.targets ++ targetsOfEntries rest

end

end Node

/-- The name a value shows for a tag of the document's own, with its exclamation mark. -/
def ownTag? (tag : Option String) : Option String :=
  match tag.map String.toList with
  | some ['!'] => some "!!"
  | some ('!' :: '!' :: c :: rest) => some (String.ofList ('!' :: c :: rest))
  | some ('!' :: rest) => some (String.ofList ('!' :: rest))
  | _ => none

/-- Reading with a number of copies left. -/
abbrev Copying := StateT Nat Option

/-- The node a node stands for, and whether a tag of its own still counts. -/
def target? (targets : List (Nat × Node)) (isTagged : Bool) : Node → Copying (Node × Bool)
  | .anchored _ content => pure (content, isTagged)
  | .alias number => do
    match ← get with
    | 0 => failure
    | copies + 1 =>
      set copies
      match (targets.reverse.find? fun e => e.1 == number) with
      | some (_, node) => pure (node, false)
      | none => failure
  | node => pure (node, isTagged)

def textValue? (isTagged : Bool) (tag : Option String) (isPlain : Bool) (s : String) :
    Option Value :=
  match tag, isTagged with
  | some tag, false => ofTyped? tag s
  | _, _ => if isPlain then ofPlain? s else some (.string s)

/-- The value of a node at a depth of at most so many lists and maps. `isTagged` says that its own
tag is taken already; the keys of a tagged map have theirs taken too. -/
def value? (targets : List (Nat × Node)) : Nat → Bool → Node → Copying Value
  | depth, isTagged, node => do
    let (node, isTagged) ← target? targets isTagged node
    let wrap := fun (tag : Option String) (v : Value) =>
      match ownTag? tag, isTagged with
      | some name, false => Value.tagged name v
      | _, _ => v
    let inTag := fun (tag : Option String) => isTagged || (ownTag? tag).isSome
    match node, depth with
    | .text tag isPlain s, _ =>
      match textValue? (inTag tag) tag isPlain s with
      | some v => pure (wrap tag v)
      | none => failure
    | .list tag items, depth + 1 =>
      return wrap tag (.list (← items.mapM fun item => value? targets depth false item))
    | .map tag entries, depth + 1 =>
      return wrap tag (.mapping (← entries.mapM fun (k, v) => do
        return (← value? targets depth (inTag tag) k, ← value? targets depth false v)))
    | _, _ => failure

/-- Lists and maps nest at most this deep. -/
def depthBound : Nat := 128

/-- How many copies a document may make for each of its parts. -/
def copiesPerPart : Nat := 100

def read? (text : String) : Option Value := do
  let node ← Node.ofTokens? (← Token.ofText? text)
  let (value, _) ← (value? node.targets depthBound false node).run (copiesPerPart * node.size)
  some value

end BackupProfiles.Yaml
