import BackupProfiles.Proofs.Document.Parts
import BackupProfiles.Proofs.Mapping.Values

/-!
# Documents with rewritten bodies

A document can be changed in the bodies of some of its profiles and nowhere else. Where the parents
stay the same, the walk from a profile to its ancestors passes the same profiles, some with their
bodies rewritten (`ancestry_revise`).
-/

namespace BackupProfiles

namespace Value

variable {revise : Mapping → Mapping}

/-- The value of a profile with its body rewritten; null is the empty body. -/
def reviseBody (revise : Mapping → Mapping) : Value → Value
  | mapping body => mapping (revise body)
  | null => mapping (revise [])
  | v => v

/-- A value with the mapping in it rewritten, behind tags too. -/
def reviseMapping (revise : Mapping → Mapping) : Value → Value
  | mapping m => mapping (revise m)
  | tagged tag v => tagged tag (v.reviseMapping revise)
  | v => v

theorem mapping?_reviseMapping (revise : Mapping → Mapping) : ∀ v : Value,
    (v.reviseMapping revise).untagged.mapping? = v.untagged.mapping?.map revise
  | .tagged _ v => by
    rw [reviseMapping, untagged, untagged]
    exact mapping?_reviseMapping revise v
  | .mapping _ | .null | .bool _ | .number _ | .string _ | .list _ => rfl

theorem reviseMapping_id : ∀ v : Value, v.reviseMapping (fun m => m) = v
  | .tagged _ v => by rw [reviseMapping, reviseMapping_id v]
  | .mapping _ | .null | .bool _ | .number _ | .string _ | .list _ => rfl

theorem reviseMapping_reviseMapping (f g : Mapping → Mapping) : ∀ v : Value,
    (v.reviseMapping f).reviseMapping g = v.reviseMapping fun m => g (f m)
  | .tagged _ v => by
    rw [reviseMapping, reviseMapping, reviseMapping, reviseMapping_reviseMapping f g v]
  | .mapping _ | .null | .bool _ | .number _ | .string _ | .list _ => rfl

theorem bodyOf_reviseBody (revise : Mapping → Mapping) (name : String) (v : Value) :
    bodyOf name (v.reviseBody revise) = (bodyOf name v).map revise := by
  cases v <;> rfl

/-- A version is no body, and a body is no version. -/
theorem layout_reviseBody (revise : Mapping → Mapping) (v : Value) :
    Layout.ofValue (some (v.reviseBody revise)) = Layout.ofValue (some v) := by
  cases v <;> rfl

end Value

namespace Mapping

variable {names : List String} {revise : Value → Value}

/-- A mapping with the values of some keys rewritten. -/
def reviseAt (names : List String) (revise : Value → Value) (m : Mapping) : Mapping :=
  m.map fun e => (e.1, if e.1 ∈ names.map Value.string then revise e.2 else e.2)

theorem get?_reviseAt_string (names : List String) (revise : Value → Value) (m : Mapping)
    (name : String) : (m.reviseAt names revise).get? (.string name) =
      (m.get? (.string name)).map fun v => if name ∈ names then revise v else v := by
  refine (get?_mapValues_string (fun key v => if key ∈ names.map Value.string then revise v else v)
    m name).trans ?_
  simp

theorem without_reviseAt (names : List String) (revise : Value → Value) (m : Mapping)
    (key : Value) : (m.reviseAt names revise).without key = (m.without key).reviseAt names revise :=
  List.filter_map

end Mapping

/-- The bodies of some profiles rewritten, none of the others. -/
def Document.reviseBodies (d : Document) (names : List String) (revise : Mapping → Mapping) :
    Document :=
  match Layout.ofValue (d.get? "version") with
  | .flat => ⟨d.root.reviseAt names (Value.reviseBody revise)⟩
  | .nested => ⟨d.root.reviseAt ["profiles"]
      (Value.reviseMapping fun profiles => profiles.reviseAt names (Value.reviseBody revise))⟩

/-- A layer with its body rewritten, if it is one of some profiles. -/
def Layer.revise (names : List String) (revise : Mapping → Mapping) (layer : Layer) : Layer :=
  ⟨layer.name, if layer.name ∈ names then revise layer.body else layer.body⟩

namespace Config

variable {d : Document} {names : List String} {revise : Mapping → Mapping}

theorem layout_reviseBodies (d : Document) (names : List String) (revise : Mapping → Mapping)
    (file : String) :
    (ofDocument (d.reviseBodies names revise) file).layout = (ofDocument d file).layout := by
  show Layout.ofValue ((d.reviseBodies names revise).get? "version") =
    Layout.ofValue (d.get? "version")
  rw [Document.get?_version, Document.reviseBodies]
  rcases hl : Layout.ofValue (d.get? "version") with _ | _ <;> rw [Document.get?_version] at hl
  · show Layout.ofValue ((d.root.reviseAt _ _).get? (.string "version")) = _
    rw [Mapping.get?_reviseAt_string, ← hl]
    rcases d.root.get? (.string "version") with _ | v
    · rfl
    · rw [Option.map_some]
      split
      · exact Value.layout_reviseBody revise v
      · rfl
  · show Layout.ofValue ((d.root.reviseAt _ _).get? (.string "version")) = _
    rw [Mapping.get?_reviseAt_string, ← hl]
    rcases d.root.get? (.string "version") with _ | v <;> rfl

theorem profiles_reviseBodies (d : Document) (names : List String) (revise : Mapping → Mapping)
    (file : String) : (ofDocument (d.reviseBodies names revise) file).profiles =
      (ofDocument d file).profiles.reviseAt names (Value.reviseBody revise) := by
  have hlayout := layout_reviseBodies d names revise file
  rcases hl : (ofDocument d file).layout with _ | _
  · rw [profiles_of_flat hl, profiles_of_flat (hlayout.trans hl)]
    have hversion : Layout.ofValue (d.get? "version") = .flat := hl
    show (d.reviseBodies names revise).root = _
    rw [Document.reviseBodies, hversion]
    rfl
  · rw [profiles_of_nested hl, profiles_of_nested (hlayout.trans hl)]
    have hversion : Layout.ofValue (d.get? "version") = .nested := hl
    show (((d.reviseBodies names revise).root.get? _).bind _).getD [] = _
    rw [Document.reviseBodies, hversion]
    show (((d.root.reviseAt _ _).get? _).bind _).getD [] = _
    rw [Mapping.get?_reviseAt_string]
    show _ = Mapping.reviseAt _ _ (((d.root.get? _).bind _).getD [])
    rcases d.root.get? (.string "profiles") with _ | v
    · rfl
    · rw [Option.map_some, if_pos (List.mem_singleton_self _), Option.bind_some, Option.bind_some,
        Value.mapping?_reviseMapping]
      rcases v.untagged.mapping? with _ | m <;> rfl

end Config

section Walk

variable {names visited : List String} {revise : Mapping → Mapping} {left : Mapping}
  {name : String} {v : Value}

theorem get?_revised (h : left.get? (.string name) = some v) :
    (left.reviseAt names (Value.reviseBody revise)).get? (.string name) =
      some (if name ∈ names then v.reviseBody revise else v) := by
  rw [Mapping.get?_reviseAt_string, h, Option.map_some]

theorem bodyOf_revised (names : List String) (revise : Mapping → Mapping) (name : String)
    (v : Value) : bodyOf name (if name ∈ names then v.reviseBody revise else v) =
      (bodyOf name v).map fun body => if name ∈ names then revise body else body := by
  split
  · exact Value.bodyOf_reviseBody revise name v
  · rcases bodyOf name v with e | body <;> rfl

/-- The walk goes the same way, past the rewritten bodies. -/
theorem ancestryFrom_revise (hparent : ∀ body, parentName? (revise body) = parentName? body)
    (left : Mapping) (visited : List String) (name : String) :
    ancestryFrom (left.reviseAt names (Value.reviseBody revise)) visited name =
      (ancestryFrom left visited name).map (List.map (Layer.revise names revise)) := by
  have hnext : ∀ (name : String) (body : Mapping),
      parentName? (if name ∈ names then revise body else body) = parentName? body := by
    intro name body
    split
    · exact hparent body
    · rfl
  have hbody : ∀ {name : String} {v : Value} {result : Except ConfigError Mapping},
      bodyOf name v = result → bodyOf name (if name ∈ names then v.reviseBody revise else v) =
        result.map fun body => if name ∈ names then revise body else body :=
    fun h => by rw [bodyOf_revised, h]
  fun_induction ancestryFrom left visited name with
  | case1 left visited name hv =>
    rw [ancestryFrom_of_mem (by simpa using hv)]
    rfl
  | case2 left visited name hv hnone =>
    rw [ancestryFrom_of_none (by simpa using hv)]
    · rfl
    · rw [Mapping.get?_reviseAt_string, hnone, Option.map_none]
  | case3 left visited name hv v hsome why hb =>
    rw [ancestryFrom_of_error (by simpa using hv) (get?_revised hsome) (hbody hb)]
    rfl
  | case4 left visited name hv v hsome body hb hp =>
    rw [ancestryFrom_last (by simpa using hv) (get?_revised hsome) (hbody hb)
      ((hnext name body).trans hp)]
    rfl
  | case5 left visited name hv v hsome body hb parent hp ih =>
    rw [ancestryFrom_parent (by simpa using hv) (get?_revised hsome) (hbody hb)
      ((hnext name body).trans hp), Mapping.without_reviseAt, ih]
    rcases ancestryFrom (left.without (.string name)) (name :: visited) parent with e | layers <;>
      rfl

theorem ancestry_revise (hparent : ∀ body, parentName? (revise body) = parentName? body)
    (d : Document) (names : List String) (file name : String) :
    ancestry (Config.ofDocument (d.reviseBodies names revise) file).profiles name =
      (ancestry (Config.ofDocument d file).profiles name).map
        (List.map (Layer.revise names revise)) := by
  rw [Config.profiles_reviseBodies, ancestry, ancestryFrom_revise hparent, ← ancestry]

end Walk

end BackupProfiles
