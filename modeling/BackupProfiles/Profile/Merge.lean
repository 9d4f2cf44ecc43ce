import BackupProfiles.Value.Basic

/-!
# Merging bodies

A body is laid over another: maps are merged key by key and anything else is replaced. A key with
dots around it is a marker and stands for the list without the dots: `key...` adds items at the
end, `...key` at the front. Markers of a body act after its other keys.
-/

namespace BackupProfiles

/-- Where a marker adds its items. -/
inductive ListEnd where
  | front
  | back
  deriving DecidableEq, Repr

structure Marker where
  base : String
  side : ListEnd
  deriving DecidableEq, Repr

namespace Marker

def dots : List Char := ['.', '.', '.']

/-- The text before the dots at its end, unless that is empty. -/
def beforeDots? (cs : List Char) : Option (List Char) :=
  let base := cs.take (cs.length - 3)
  if cs = base ++ dots ∧ base ≠ [] then some base else none

/-- The text after the dots at its start, unless that is empty. -/
def afterDots? (cs : List Char) : Option (List Char) :=
  let base := cs.drop 3
  if cs = dots ++ base ∧ base ≠ [] then some base else none

/-- The marker that a text is; dots at the end count first. -/
def ofText? (s : String) : Option Marker :=
  match beforeDots? s.toList with
  | some base => some ⟨String.ofList base, .back⟩
  | none => (afterDots? s.toList).map fun base => ⟨String.ofList base, .front⟩

def ofKey? (key : Value) : Option Marker := key.keyText.bind ofText?

end Marker

namespace Value

/-- The items that a value adds to a list. -/
def items : Value → List Value
  | .null => []
  | .list vs => vs
  | v => [v]

/-- The entries of a mapping; anything else has none. -/
def mappingEntries : Value → Mapping
  | .mapping m => m
  | _ => []

end Value

namespace Mapping

/-- Adds the items of a marker. The list moves to the end of the mapping. -/
def applyMarker (target : Mapping) (marker : Marker) (value : Value) : Mapping :=
  let key := Value.string marker.base
  let held := ((target.get? key).map Value.items).getD []
  let items := match marker.side with
    | .front => value.items ++ held
    | .back => held ++ value.items
  (target.erase key).insert key (.list items)

/-- Applies the markers of a body in their order. -/
def applyMarkers (target : Mapping) : Mapping → Mapping
  | [] => target
  | (key, value) :: rest =>
    match Marker.ofKey? key with
    | some marker => applyMarkers (target.applyMarker marker value) rest
    | none => applyMarkers target rest

mutual

/-- What stands for a key after its new value is laid over the old one. -/
def overlayValue (old? : Option Value) : Value → Value
  | .mapping body =>
    .mapping (applyMarkers (overlayPlain ((old?.map Value.mappingEntries).getD []) body) body)
  | v => v

/-- Lays the keys that are no markers over a mapping. -/
def overlayPlain (target : Mapping) : List (Value × Value) → Mapping
  | [] => target
  | (key, value) :: rest =>
    match Marker.ofKey? key with
    | some _ => overlayPlain target rest
    | none => overlayPlain (target.insert key (overlayValue (target.get? key) value)) rest

end

/-- Lays a body over a mapping. -/
def overlay (target body : Mapping) : Mapping := applyMarkers (overlayPlain target body) body

end Mapping

end BackupProfiles
