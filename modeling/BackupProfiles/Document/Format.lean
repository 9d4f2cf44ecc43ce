import BackupProfiles.Path.Text

/-!
# Formats of a document

A configuration is written in one of three formats, told apart by the extension of its file.
-/

namespace BackupProfiles

inductive Format where
  | toml
  | yaml
  | json
  deriving DecidableEq, Repr, Inhabited

namespace Format

def text : Format → String
  | toml => "toml"
  | yaml => "yaml"
  | json => "json"

/-- A format by its name or extension, in any case. -/
def ofName? (name : String) : Option Format :=
  match name.map Char.toLower with
  | "toml" | "conf" => some toml
  | "yaml" | "yml" => some yaml
  | "json" => some json
  | _ => none

def ofPath? (path : String) : Option Format := (Path.extension? path).bind ofName?

/-- The extensions that are looked for, in this order. -/
def extensions : List String := ["toml", "conf", "yaml", "yml", "json"]

end Format

end BackupProfiles
