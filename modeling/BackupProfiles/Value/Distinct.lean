import BackupProfiles.Value.Basic

/-!
# Distinct keys

No map of a document may have one key twice. `allDistinct` says so of every mapping in a value,
however deep it stands.
-/

namespace BackupProfiles.Value

/-- No two keys of a list are the same. -/
def distinctKeys : List Value → Bool
  | [] => true
  | k :: rest => rest.all (fun other => !sameKey k other) && distinctKeys rest

mutual

def allDistinct : Value → Bool
  | .list items => allDistinctItems items
  | .mapping entries => distinctKeys (entries.map (·.1)) && allDistinctEntries entries
  | .tagged _ content => allDistinct content
  | _ => true

def allDistinctItems : List Value → Bool
  | [] => true
  | v :: rest => allDistinct v && allDistinctItems rest

def allDistinctEntries : List (Value × Value) → Bool
  | [] => true
  | (k, v) :: rest => allDistinct k && allDistinct v && allDistinctEntries rest

end

end BackupProfiles.Value
