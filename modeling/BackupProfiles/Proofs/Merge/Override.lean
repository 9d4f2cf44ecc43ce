import BackupProfiles.Proofs.Merge.Chain

/-!
# The nearest layer decides

A layer decides a path of keys when its own walk down the path reaches a value or meets something
that is no mapping. What a chain merges to follows the nearest layer that decides
(`walk_mergedBody`): laying a body that decides over anything gives what the body says
(`fixes_overlay`), and a body whose walk ends at a missing key leaves the path as it was
(`at?_overlay_of_missing`).
-/

namespace BackupProfiles

/-- How a walk down a path of keys ends. -/
inductive Walk where
  /-- At a mapping without the next key. -/
  | missing
  /-- Before the end of the path, at something that is no mapping. -/
  | blocked
  | reached (v : Value)
  deriving DecidableEq

namespace Value

def walk : Value → List Value → Walk
  | v, [] => .reached v
  | .mapping m, key :: path =>
    match Mapping.get? m key with
    | some v => walk v path
    | none => .missing
  | _, _ :: _ => .blocked

/-- The value at the end of a path. -/
def at? (v : Value) (path : List Value) : Option Value :=
  match v.walk path with
  | .reached w => some w
  | .blocked | .missing => none

/-- No mapping that the walk looks a key up in has a marker among its keys. -/
def UnmarkedAlong : Value → List Value → Prop
  | .mapping m, key :: path =>
    Mapping.Unmarked m ∧ ∀ v ∈ Mapping.get? m key, UnmarkedAlong v path
  | _, _ => True

instance decidableUnmarkedAlong :
    ∀ (v : Value) (path : List Value), Decidable (v.UnmarkedAlong path)
  | .mapping m, key :: path =>
    have := fun v => decidableUnmarkedAlong v path
    inferInstanceAs
      (Decidable (Mapping.Unmarked m ∧ ∀ v ∈ Mapping.get? m key, UnmarkedAlong v path))
  | .mapping _, [] => isTrue trivial
  | .null, _ | .bool _, _ | .number _, _ | .string _, _ | .list _, _ | .tagged _ _, _ =>
    isTrue (by simp [UnmarkedAlong])

end Value

/-- What the walk of a deciding layer says about the value that is held at the end. -/
def Walk.Fixes : Walk → Option Value → Prop
  | .reached (.mapping _), held? => ∃ m, held? = some (.mapping m)
  | .reached v, held? => held? = some v
  | .blocked, held? | .missing, held? => held? = none

/-- The walk of the nearest layer that decides a path, missing if there is none. -/
def decidingWalk (path : List Value) (layers : List Layer) : Walk :=
  (((contributors path layers).map fun layer => (Value.mapping layer.body).walk path).find?
    (· ≠ .missing)).getD .missing

variable {key : Value} {path : List Value} {target body : Mapping} {layers : List Layer}

theorem Walk.fixes_reached {v : Value} (h : v.mapping? = none) {held? : Option Value} :
    (Walk.reached v).Fixes held? ↔ held? = some v := by
  cases v with
  | mapping m => simp [Value.mapping?] at h
  | _ => rfl

namespace Value

theorem walk_of_not_mapping {v : Value} (h : v.mapping? = none) :
    v.walk (key :: path) = .blocked := by
  cases v with
  | mapping m => simp [mapping?] at h
  | _ => rfl

theorem at?_of_not_mapping {v : Value} (h : v.mapping? = none) : v.at? (key :: path) = none := by
  rw [at?, walk_of_not_mapping h]

theorem walk_mapping (m : Mapping) (key : Value) (path : List Value) :
    (mapping m).walk (key :: path) = ((m.get? key).map (walk · path)).getD .missing := by
  rw [walk]
  rcases m.get? key with _ | v <;> rfl

theorem at?_mapping (m : Mapping) (key : Value) (path : List Value) :
    (mapping m).at? (key :: path) = (m.get? key).bind (at? · path) := by
  unfold at?
  rw [walk_mapping]
  rcases m.get? key with _ | v <;> rfl

theorem mapping_or_not (v : Value) : (∃ m, v = .mapping m) ∨ v.mapping? = none := by
  cases v with
  | mapping m => exact Or.inl ⟨m, rfl⟩
  | _ => exact Or.inr rfl

/-- Past its end a path goes down the entries of what a key stands for. -/
theorem at?_entriesAt (m : Mapping) (hp : path ≠ []) :
    (mapping (m.entriesAt key)).at? path = (mapping m).at? (key :: path) := by
  obtain ⟨next, rest, rfl⟩ := List.exists_cons_of_ne_nil hp
  rw [at?_mapping m, Mapping.entriesAt]
  rcases m.get? key with _ | v
  · rfl
  · rcases mapping_or_not v with ⟨inner, rfl⟩ | hv
    · rfl
    · rw [Option.bind_some, at?_of_not_mapping hv]
      cases v with
      | mapping inner => simp [mapping?] at hv
      | _ => rfl

end Value

section Overlay

open Mapping

theorem fixes_overlay (hb : (Value.mapping body).Tidy)
    (hu : (Value.mapping body).UnmarkedAlong path)
    (hw : (Value.mapping body).walk path ≠ .missing) :
    ((Value.mapping body).walk path).Fixes ((Value.mapping (target.overlay body)).at? path) := by
  induction path generalizing target body with
  | nil => exact ⟨_, rfl⟩
  | cons key path ih =>
    obtain ⟨hmark, hrest⟩ := hu
    rw [Value.walk_mapping] at hw ⊢
    rw [Value.at?_mapping, get?_overlay_of_unmarked hb.distinct hmark]
    rcases hv : body.get? key with _ | v
    · rw [hv] at hw
      exact absurd rfl hw
    · rw [hv] at hw
      simp only [Option.map_some, Option.getD_some, overlayValue?, Option.bind_some] at hw ⊢
      rcases Value.mapping_or_not v with ⟨inner, rfl⟩ | hleaf
      · rw [overlayValue_mapping]
        exact ih (hb.get? hv) (hrest _ hv) hw
      · rw [overlayValue_of_not_mapping _ hleaf]
        cases path with
        | nil => exact (Walk.fixes_reached hleaf).2 rfl
        | cons next path =>
          rw [Value.walk_of_not_mapping hleaf]
          exact Value.at?_of_not_mapping hleaf

theorem at?_overlay_of_missing (hb : (Value.mapping body).Tidy)
    (hu : (Value.mapping body).UnmarkedAlong path)
    (hw : (Value.mapping body).walk path = .missing) :
    (Value.mapping (target.overlay body)).at? path = (Value.mapping target).at? path := by
  induction path generalizing target body with
  | nil => simp [Value.walk] at hw
  | cons key path ih =>
    obtain ⟨hmark, hrest⟩ := hu
    rw [Value.walk_mapping] at hw
    rw [Value.at?_mapping, get?_overlay_of_unmarked hb.distinct hmark]
    rcases hv : body.get? key with _ | v
    · rw [Value.at?_mapping]
      rfl
    · rw [hv] at hw
      simp only [Option.map_some, Option.getD_some] at hw
      rcases Value.mapping_or_not v with ⟨inner, rfl⟩ | hleaf
      · have hp : path ≠ [] := by
          rintro rfl
          simp [Value.walk] at hw
        simp only [overlayValue?, Option.bind_some]
        rw [overlayValue_mapping, ih (hb.get? hv) (hrest _ hv) hw]
        exact Value.at?_entriesAt target hp
      · cases path with
        | nil => simp [Value.walk] at hw
        | cons next path =>
          rw [Value.walk_of_not_mapping hleaf] at hw
          simp at hw

end Overlay

section Chain

variable {layer : Layer} {older : List Layer}

theorem contributors_of_description (path : List Value) (layer : Layer) (older : List Layer) :
    contributors (descriptionKey :: path) (layer :: older) = [layer] := by
  rw [contributors, List.head?_cons, if_pos rfl, List.take_succ_cons, List.take_zero]

theorem contributors_of_ne (hk : key ≠ descriptionKey) (layers : List Layer) :
    contributors (key :: path) layers = layers := by
  rw [contributors, List.head?_cons, if_neg (by simpa using hk)]

theorem mem_contributors_cons : layer ∈ contributors path (layer :: older) := by
  unfold contributors
  split <;> simp

theorem mem_contributors_of_older {l : Layer} (hd : path.head? ≠ some descriptionKey)
    (hl : l ∈ contributors path older) : l ∈ contributors path (layer :: older) := by
  unfold contributors at hl ⊢
  rw [if_neg hd] at hl ⊢
  exact List.mem_cons_of_mem _ hl

theorem decidingWalk_of_ne_missing (h : (Value.mapping layer.body).walk path ≠ .missing) :
    decidingWalk path (layer :: older) = (Value.mapping layer.body).walk path := by
  unfold decidingWalk contributors
  split <;> simp [h]

theorem decidingWalk_of_missing (hk : key ≠ descriptionKey)
    (h : (Value.mapping layer.body).walk (key :: path) = .missing) :
    decidingWalk (key :: path) (layer :: older) = decidingWalk (key :: path) older := by
  unfold decidingWalk
  rw [contributors_of_ne hk, contributors_of_ne hk, List.map_cons,
    List.find?_cons_of_neg (by simp [h])]

theorem decidingWalk_of_description
    (h : (Value.mapping layer.body).walk (descriptionKey :: path) = .missing) :
    decidingWalk (descriptionKey :: path) (layer :: older) = .missing := by
  unfold decidingWalk
  rw [contributors_of_description]
  simp [h]

theorem fixes_mergeLayers (ht : ∀ layer ∈ layers, (Value.mapping layer.body).Tidy)
    (hu : ∀ layer ∈ contributors (key :: path) layers,
      (Value.mapping layer.body).UnmarkedAlong (key :: path)) :
    (decidingWalk (key :: path) layers).Fixes
      ((Value.mapping (mergeLayers layers)).at? (key :: path)) := by
  induction layers with
  | nil =>
    unfold decidingWalk contributors
    split <;> rfl
  | cons layer older ih =>
    have htl := ht layer List.mem_cons_self
    have hul := hu layer mem_contributors_cons
    rw [mergeLayers_cons]
    by_cases hw : (Value.mapping layer.body).walk (key :: path) = .missing
    · rw [at?_overlay_of_missing htl hul hw, Value.at?_mapping,
        Mapping.get?_erase_description (tidy_mergeLayers older).distinct]
      by_cases hk : key = descriptionKey
      · subst hk
        rw [decidingWalk_of_description hw, if_pos rfl]
        rfl
      · rw [contributors_of_ne hk] at hu
        rw [contributors_of_ne hk] at ih
        rw [decidingWalk_of_missing hk hw, if_neg hk, ← Value.at?_mapping]
        exact ih (fun l hl => ht l (List.mem_cons_of_mem _ hl))
          fun l hl => hu l (List.mem_cons_of_mem _ hl)
    · rw [decidingWalk_of_ne_missing hw]
      exact fixes_overlay htl hul hw

end Chain

/-- A merged body holds at a path what the nearest layer that decides the path says: its value if
that is no mapping, some mapping if it is one, and nothing if the layer ends the path earlier or no
layer decides. What is under a description is up to the requested layer alone. -/
theorem walk_mergedBody {c : Config} {name : String} (hd : c.document.Distinct)
    (ha : ancestry c.profiles name = .ok layers)
    (hu : ∀ layer ∈ contributors path layers, (Value.mapping layer.body).UnmarkedAlong path) :
    ∃ merged, mergedBody c.profiles name = .ok merged ∧
      (decidingWalk path layers).Fixes ((Value.mapping merged).at? path) := by
  refine ⟨_, mergedBody_of_ancestry ha, ?_⟩
  cases path with
  | cons key path => exact fixes_mergeLayers (tidy_of_ancestry hd ha) hu
  | nil =>
    obtain ⟨layer, older, rfl⟩ := List.exists_cons_of_ne_nil (layers_of_ancestryFrom ha).1
    rw [decidingWalk_of_ne_missing (by simp [Value.walk])]
    exact ⟨_, rfl⟩

/-- The tagged value in the middle layer hides the source that the last ancestor sets. -/
theorem walk_mergedBody_threeLayers :
    decidingWalk [.string "backup", .string "source"] threeLayersChain = .blocked ∧
    ∃ merged, mergedBody threeLayers.profiles "child" = .ok merged ∧
      (Value.mapping merged).at? [.string "backup", .string "source"] = none := by
  have hwalk : decidingWalk [.string "backup", .string "source"] threeLayersChain = .blocked := by
    decide
  obtain ⟨merged, hm, hfix⟩ : ∃ merged, mergedBody threeLayers.profiles "child" = .ok merged ∧
      (decidingWalk [.string "backup", .string "source"] threeLayersChain).Fixes
        ((Value.mapping merged).at? [.string "backup", .string "source"]) :=
    walk_mergedBody distinct_threeLayers ancestry_threeLayers (by decide)
  rw [hwalk] at hfix
  exact ⟨hwalk, merged, hm, hfix⟩

end BackupProfiles
