import BackupProfiles.Config
import BackupProfiles.Proofs.Secrets.Merge

/-!
# Confidential positions

Where the secrets of profiles stand in a document: the settings of a profile and of the copy and
init sections that name repositories and passwords, the variables, and in the calls of a section the
address and the values of headers. A marker for a moment or for headers leads to calls or headers as
well. Calls and headers may also be written by the numbers of their fields, as keys or as lists;
only of a single call that stands for a whole moment the items are no positions, as merging adds to
that list and so changes what its items are.

All these positions bear merging.
-/

namespace BackupProfiles

/-- Positions by the key they are behind, of one value or of every value of a list. -/
def Positions.keyed (f : String → Positions) : Positions
  | .key name :: rest => (f name).many rest
  | _ => false

/-- The key that a marker is for; other keys are for themselves. -/
def Marker.unmarked (name : String) : String := ((ofText? name).map (·.base)).getD name

open Positions

def Header.behind : String → Positions
  | "value" | "1" => here
  | _ => none

def Header.confidential : Positions
  | .item 1 :: rest => here rest
  | path => keyed behind path

def Call.behind (name : String) : Positions :=
  if name = "url" ∨ name = "1" then here
  else if Marker.unmarked name = "headers" ∨ name = "2" then Header.confidential
  else none

def Call.confidential : Positions
  | .item 1 :: rest => here rest
  | .item 2 :: rest => Header.confidential.many rest
  | path => keyed behind path

def Hooks.behind (name : String) : Positions :=
  if Marker.unmarked name ∈ Shape.names checks then Call.confidential else Positions.none

def Hooks.confidential : Positions := keyed behind

def CopySection.behind : String → Positions
  | "repository" | "password-file" | "password-command" | "key-hint" => here
  | name => Hooks.behind name

def CopySection.confidential : Positions := keyed behind

def InitSection.behind : String → Positions
  | "from-repository" | "from-password-file" | "from-password-command" | "from-key-hint" => here
  | _ => none

def InitSection.confidential : Positions := keyed behind

def Profile.behind : String → Positions
  | "repository" | "password-file" | "password-command" | "key-hint" => here
  | "env" => keyed fun _ => here
  | "backup" | "check" | "prune" | "forget" => Hooks.confidential
  | "copy" => CopySection.confidential
  | "init" => InitSection.confidential
  | _ => none

def Profile.confidential : Positions := keyed behind

def Document.confidential : Layout → Positions
  | .flat, .key _ :: rest => Profile.confidential rest
  | .nested, .key name :: .key _ :: rest => name == "profiles" && Profile.confidential rest
  | _, _ => false

def Document.layout (d : Document) : Layout := Layout.ofValue (d.get? "version")

/-- The document with its secrets hidden: documents of which this is the same differ in nothing but
which texts stand for secrets that are not empty. -/
def Document.hidden (d : Document) : Document := ⟨d.root.redact (confidential d.layout)⟩

namespace Positions

@[simp]
theorem under_keyed (f : String → Positions) (name : String) :
    (keyed f).under (.key name) = (f name).many := rfl

namespace Mergeable

variable {f : String → Positions}

theorem keyed (hm : ∀ {name marker}, Marker.ofText? name = some marker →
    (f name).Within (f marker.base)) (hf : ∀ name, (f name).Mergeable) :
    (Positions.keyed f).Mergeable :=
  of_keys (under_keyed f) hm hf

theorem of_here : here.Mergeable := by
  refine of_keys (f := fun _ => Positions.none) (fun name => ?_) (fun _ => Within.refl _)
    fun _ => Mergeable.none
  rw [many_none]
  rfl

end Mergeable

end Positions

theorem Marker.unmarked_of_ofText? {name : String} {marker : Marker}
    (h : ofText? name = some marker) : unmarked name = marker.base := by
  rw [unmarked, h]
  rfl

theorem Header.mergeable_confidential : confidential.Mergeable := by
  refine Mergeable.of_keys (f := behind) (fun _ => rfl) (fun {name marker} h => ?_) fun name => ?_
  · unfold behind
    split
    · cases h
    · cases h
    · exact Within.none _
  · unfold behind
    split
    · exact Mergeable.of_here
    · exact Mergeable.of_here
    · exact Mergeable.none

theorem Call.mergeable_confidential : confidential.Mergeable := by
  refine Mergeable.of_keys (f := behind) (fun _ => rfl) (fun {name marker} h => ?_) fun name => ?_
  · rw [behind, Marker.unmarked_of_ofText? h]
    split_ifs with hurl hheaders
    · rcases hurl with rfl | rfl <;> cases h
    · rcases hheaders with hbase | rfl
      · rw [hbase]
        exact Within.refl _
      · cases h
    · exact Within.none _
  · unfold behind
    split_ifs
    · exact Mergeable.of_here
    · exact Header.mergeable_confidential
    · exact Mergeable.none

namespace Hooks

theorem unmarked_moment : ∀ name ∈ Shape.names checks, Marker.unmarked name = name := by decide

theorem behind_moment {name : String} (h : name ∈ Shape.names checks) :
    behind name = Call.confidential := by
  rw [behind, unmarked_moment name h, if_pos h]

theorem behind_marker {name : String} {marker : Marker} (h : Marker.ofText? name = some marker) :
    (behind name).Within (behind marker.base) := by
  rw [behind, Marker.unmarked_of_ofText? h]
  split_ifs with hm
  · rw [behind_moment hm]
    exact Within.refl _
  · exact Within.none _

theorem mergeable_behind (name : String) : (behind name).Mergeable := by
  unfold behind
  split_ifs
  · exact Call.mergeable_confidential
  · exact Mergeable.none

theorem mergeable_confidential : confidential.Mergeable :=
  Mergeable.keyed behind_marker mergeable_behind

end Hooks

theorem CopySection.behind_moment {name : String} (h : name ∈ Shape.names Hooks.checks) :
    behind name = Call.confidential := by
  simp only [Shape.names, Hooks.checks, List.map_cons, List.map_nil, List.mem_cons,
    List.not_mem_nil, or_false] at h
  rcases h with rfl | rfl | rfl | rfl <;> rfl

theorem CopySection.mergeable_confidential : confidential.Mergeable := by
  refine Mergeable.keyed (fun {name marker} h => ?_) fun name => ?_
  · have hbase : (Hooks.behind name).Within (behind marker.base) := by
      by_cases hm : marker.base ∈ Shape.names Hooks.checks
      · rw [behind_moment hm, ← Hooks.behind_moment hm]
        exact Hooks.behind_marker h
      · rw [Hooks.behind, Marker.unmarked_of_ofText? h, if_neg hm]
        exact Within.none _
    rw [behind.eq_def]
    split <;> first | cases h | exact hbase
  · unfold behind
    split <;> first | exact Mergeable.of_here | exact Hooks.mergeable_behind name

theorem InitSection.mergeable_confidential : confidential.Mergeable := by
  refine Mergeable.keyed (fun {name marker} h => ?_) fun name => ?_
  · unfold behind
    split <;> first | cases h | exact Within.none _
  · unfold behind
    split <;> first | exact Mergeable.of_here | exact Mergeable.none

theorem Profile.mergeable_confidential : confidential.Mergeable := by
  refine Mergeable.keyed (fun {name marker} h => ?_) fun name => ?_
  · unfold behind
    split <;> first | cases h | exact Within.none _
  · unfold behind
    split <;> first
      | exact Mergeable.of_here
      | exact Hooks.mergeable_confidential
      | exact CopySection.mergeable_confidential
      | exact InitSection.mergeable_confidential
      | exact Mergeable.none
      | exact Mergeable.keyed (fun _ => Within.refl _) fun _ => Mergeable.of_here

end BackupProfiles
