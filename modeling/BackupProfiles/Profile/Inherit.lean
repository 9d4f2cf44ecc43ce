import BackupProfiles.ConfigError
import BackupProfiles.Profile.Merge
import BackupProfiles.Text.Blank

/-!
# Inheritance

The body of a profile may name a parent. `ancestry` walks from a profile to its last ancestor; each
profile it meets is taken off the ones that are left, so the walk ends. `mergedBody` lays the bodies
over each other, the last ancestor first. A description is not inherited.
-/

namespace BackupProfiles

/-- A profile met on the way to the last ancestor. -/
structure Layer where
  name : String
  body : Mapping
  deriving DecidableEq

/-- The parent that a body names. -/
def parentName? (body : Mapping) : Option String :=
  match body.get? (.string "inherit") with
  | some (.string s) => if Text.isAllBlank s then none else some (Text.trim s)
  | _ => none

/-- The body of a profile; null is the empty one. -/
def bodyOf (name : String) : Value → Except ConfigError Mapping
  | .mapping body => .ok body
  | .null => .ok []
  | v => .error (.invalidProfile name v.kind)

/-- The error for a profile that is not there. -/
def missingProfile (name : String) : Option String → ConfigError
  | none => .profileNotFound name
  | some child => .parentNotFound child name

namespace Mapping

/-- A mapping without the entries of a key, the others in their order. -/
def without (m : Mapping) (key : Value) : Mapping := m.filter fun e => !e.1.sameKey key

theorem length_without_lt {m : Mapping} {key value : Value} (h : m.get? key = some value) :
    (m.without key).length < m.length := by
  obtain ⟨e, he, -⟩ := Option.map_eq_some_iff.1 h
  have hkey := List.find?_some he
  refine List.length_filter_lt_length_iff_exists.2 ⟨e, List.mem_of_find?_eq_some he, ?_⟩
  simpa using hkey

end Mapping

/-- The profiles from `name` up to its last ancestor, looked up in the profiles that are left.
`visited` names the profiles already met, the last first. -/
def ancestryFrom (left : Mapping) (visited : List String) (name : String) :
    Except ConfigError (List Layer) :=
  if visited.contains name then .error (.inheritanceLoop name)
  else
    match _h : left.get? (.string name) with
    | none => .error (missingProfile name visited.head?)
    | some value =>
      match bodyOf name value with
      | .error e => .error e
      | .ok body =>
        match parentName? body with
        | none => .ok [⟨name, body⟩]
        | some parent =>
          (ancestryFrom (left.without (.string name)) (name :: visited) parent).map
            (⟨name, body⟩ :: ·)
termination_by left.length
decreasing_by exact Mapping.length_without_lt _h

def ancestry (profiles : Mapping) (name : String) : Except ConfigError (List Layer) :=
  ancestryFrom profiles [] name

/-- Lays a body over its merged ancestors. -/
def layOver (merged body : Mapping) : Mapping :=
  (merged.erase (.string "description")).overlay body

/-- The bodies laid over each other, the last ancestor first. -/
def mergeLayers (layers : List Layer) : Mapping :=
  match layers.reverse with
  | [] => []
  | oldest :: younger =>
    younger.foldl (fun merged layer => layOver merged layer.body) (Mapping.overlay [] oldest.body)

def mergedBody (profiles : Mapping) (name : String) : Except ConfigError Mapping :=
  (ancestry profiles name).map mergeLayers

end BackupProfiles
