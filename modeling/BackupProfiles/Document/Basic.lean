import BackupProfiles.ConfigError
import BackupProfiles.Json.Read
import BackupProfiles.Toml.Read
import BackupProfiles.Value.Distinct
import BackupProfiles.Yaml.Read

/-!
# Documents

A document is the tree of a configuration, whatever format it was written in. Its root is a map,
and no map in it has a key twice. Look-ups go by keys that are texts and see through tags.
-/

namespace BackupProfiles

structure Document where
  root : Mapping
  deriving DecidableEq

namespace Document

def empty : Document := ⟨[]⟩

instance : Inhabited Document := ⟨empty⟩

/-- Reads the tree of a text. -/
def readValue? (format : Format) (text : String) : Option Value :=
  (match format with
    | .toml => Toml.read? text
    | .yaml => Yaml.read? text
    | .json => Json.read? text).filter Value.allDistinct

/-- A text without content is the empty document. -/
def parse (format : Format) (text : String) : Except ConfigError Document :=
  match readValue? format text with
  | none => .error (.unparsable format none)
  | some (.mapping root) => .ok ⟨root⟩
  | some .null => .ok empty
  | some v => .error (.unparsable format (some v.kind))

/-- The value under a path of keys from a value on. -/
def descend (v : Value) : List String → Option Value
  | [] => some v
  | key :: rest => (v.untagged.member? key).bind fun w => descend w rest

/-- The value under a path of at least one key. -/
def at? (d : Document) : List String → Option Value
  | [] => none
  | path => descend (.mapping d.root) path

/-- The value under keys joined by dots. -/
def get? (d : Document) (dotted : String) : Option Value := d.at? (Text.split '.' dotted)

/-- The mapping under a path of keys; the root under the empty one. -/
def mapping? (d : Document) (path : List String) : Option Mapping :=
  match descend (.mapping d.root) path with
  | some v => v.untagged.mapping?
  | none => none

/-- The keys of a mapping that have a text, in document order. -/
def keys (d : Document) (path : List String) : List String :=
  ((d.mapping? path).map fun m => m.filterMap fun e => e.1.keyText).getD []

end Document

end BackupProfiles
