import BackupProfiles.Profile.Inherit
import BackupProfiles.Proofs.Document.Distinct
import BackupProfiles.Proofs.Merge.Overlay

/-!
# Merging a chain

A chain lists the layers of a profile with the requested one first. Merging lays its body over what
the rest of the chain merges to, the description taken off (`mergeLayers_cons`), so every fact on a
merged chain is an induction along it. A description is only seen by the layer it stands in:
`contributors` lists the layers that a path of keys depends on.
-/

namespace BackupProfiles

/-- The key of the setting that is not inherited. -/
def descriptionKey : Value := .string "description"

/-- The layers that the value at a path can come from. -/
def contributors (path : List Value) (layers : List Layer) : List Layer :=
  if path.head? = some descriptionKey then layers.take 1 else layers

namespace Mapping

theorem get?_without (m : Mapping) (key other : Value) :
    (m.without key).get? other = if key.sameKey other then none else m.get? other :=
  get?_filter_not_sameKey m key other

theorem without_string (m : Mapping) (s : String) :
    m.without (.string s) = m.filter fun e => e.1 ≠ .string s := by
  refine List.filter_congr fun e _ => ?_
  rw [decide_not, Bool.not_inj_iff, Bool.eq_iff_iff, Value.sameKey_string, decide_eq_true_iff]

theorem get?_erase_description {m : Mapping} (hm : m.Distinct) (key : Value) :
    (m.erase descriptionKey).get? key =
      if key = descriptionKey then none else m.get? key := by
  rw [get?_erase hm, descriptionKey]
  simp only [Value.string_sameKey]

end Mapping

theorem mergeLayers_nil : mergeLayers [] = [] := rfl

theorem mergeLayers_cons (layer : Layer) (older : List Layer) :
    mergeLayers (layer :: older) =
      ((mergeLayers older).erase descriptionKey).overlay layer.body := by
  unfold mergeLayers
  rw [List.reverse_cons]
  rcases older.reverse with _ | ⟨oldest, younger⟩
  · rfl
  · simp only [List.cons_append, List.foldl_append, List.foldl_cons, List.foldl_nil]
    rfl

theorem mergedBody_of_ancestry {profiles : Mapping} {name : String} {layers : List Layer}
    (h : ancestry profiles name = .ok layers) :
    mergedBody profiles name = .ok (mergeLayers layers) := by
  rw [mergedBody, h]
  rfl

theorem tidy_bodyOf {name : String} {v : Value} {body : Mapping} (hv : v.Tidy)
    (h : bodyOf name v = .ok body) : (Value.mapping body).Tidy := by
  cases v with
  | mapping m =>
    simp only [bodyOf, Except.ok.injEq] at h
    rwa [← h]
  | null =>
    simp only [bodyOf, Except.ok.injEq] at h
    rw [← h]
    exact Value.Tidy.nil
  | _ => simp [bodyOf] at h

/-- A chain that is found has a layer, and its bodies stand in the profiles. -/
theorem layers_of_ancestryFrom {left : Mapping} {visited : List String} {name : String}
    {layers : List Layer} (h : ancestryFrom left visited name = .ok layers) :
    layers ≠ [] ∧ ∀ layer ∈ layers, ∃ e ∈ left, bodyOf layer.name e.2 = .ok layer.body := by
  fun_induction ancestryFrom left visited name generalizing layers with
  | case1 => cases h
  | case2 => cases h
  | case3 => cases h
  | case4 left visited name _ v hv body hb hp =>
    simp only [Except.ok.injEq] at h
    subst h
    refine ⟨by simp, fun layer hl => ?_⟩
    rw [List.mem_singleton.1 hl]
    exact ⟨_, Mapping.mem_of_get? hv, hb⟩
  | case5 left visited name _ v hv body hb parent hp ih =>
    rcases hrest : ancestryFrom (left.without (.string name)) (name :: visited) parent
      with _ | older
    · rw [hrest] at h
      cases h
    · rw [hrest] at h
      simp only [Except.map, Except.ok.injEq] at h
      subst h
      refine ⟨by simp, fun layer hl => ?_⟩
      rcases List.mem_cons.1 hl with rfl | hl
      · exact ⟨_, Mapping.mem_of_get? hv, hb⟩
      · obtain ⟨e, he, hbody⟩ := (ih hrest).2 layer hl
        exact ⟨e, (List.mem_filter.1 he).1, hbody⟩

section Steps

variable {left body : Mapping} {visited : List String} {name parent : String} {v : Value}

theorem ancestryFrom_of_mem (h : name ∈ visited) :
    ancestryFrom left visited name = .error (.inheritanceLoop name) := by
  rw [ancestryFrom, if_pos (by simpa using h)]

theorem ancestryFrom_of_none (hn : name ∉ visited) (h : left.get? (.string name) = none) :
    ancestryFrom left visited name = .error (missingProfile name visited.head?) := by
  rw [ancestryFrom, if_neg (by simpa using hn)]
  split
  · rfl
  · rename_i w hw
    rw [h] at hw
    cases hw

theorem ancestryFrom_of_error {e : ConfigError} (hn : name ∉ visited)
    (hv : left.get? (.string name) = some v) (hb : bodyOf name v = .error e) :
    ancestryFrom left visited name = .error e := by
  rw [ancestryFrom, if_neg (by simpa using hn)]
  split
  · rename_i h
    simp [hv] at h
  · rename_i w h
    rw [hv, Option.some.injEq] at h
    subst h
    simp only [hb]

theorem ancestryFrom_last (hn : name ∉ visited) (hv : left.get? (.string name) = some v)
    (hb : bodyOf name v = .ok body) (hp : parentName? body = none) :
    ancestryFrom left visited name = .ok [⟨name, body⟩] := by
  rw [ancestryFrom, if_neg (by simpa using hn)]
  split
  · rename_i h
    simp [hv] at h
  · rename_i w h
    rw [hv, Option.some.injEq] at h
    subst h
    simp only [hb, hp]

theorem ancestryFrom_parent (hn : name ∉ visited) (hv : left.get? (.string name) = some v)
    (hb : bodyOf name v = .ok body) (hp : parentName? body = some parent) :
    ancestryFrom left visited name =
      (ancestryFrom (left.without (.string name)) (name :: visited) parent).map
        (⟨name, body⟩ :: ·) := by
  rw [ancestryFrom, if_neg (by simpa using hn)]
  split
  · rename_i h
    simp [hv] at h
  · rename_i w h
    rw [hv, Option.some.injEq] at h
    subst h
    simp only [hb, hp]

end Steps

theorem tidy_of_ancestry {c : Config} {name : String} {layers : List Layer}
    (hd : c.document.Distinct) (h : ancestry c.profiles name = .ok layers) :
    ∀ layer ∈ layers, (Value.mapping layer.body).Tidy := by
  intro layer hl
  obtain ⟨e, he, hb⟩ := (layers_of_ancestryFrom h).2 layer hl
  exact tidy_bodyOf (Config.tidy_of_profiles hd he) hb

theorem tidy_mergeLayers : ∀ layers : List Layer, (Value.mapping (mergeLayers layers)).Tidy
  | [] => Value.Tidy.nil
  | layer :: older => by
    rw [mergeLayers_cons]
    exact Mapping.tidy_overlay ((tidy_mergeLayers older).erase _)

/-- A configuration whose profile `child` inherits from `middle` and that from `root`. -/
def threeLayers : Config := .ofDocument ⟨[
  (.string "root", .mapping [
    (.string "description", .string "all"),
    (.string "backup", .mapping [(.string "source", .string "/")]),
    (.string "forget", .mapping [
      (.string "tag", .string "old"),
      (.string "tag...", .string "x")])]),
  (.string "middle", .mapping [
    (.string "inherit", .string "root"),
    (.string "backup", .tagged "!off" .null),
    (.string "forget", .mapping [
      (.string "...tag", .string "b"),
      (.string "tag", .string "a"),
      (.string "tag...", .list [.string "c"])])]),
  (.string "child", .mapping [
    (.string "inherit", .string " middle "),
    (.string "backup", .mapping [(.string "tag", .list [.string "daily"])]),
    (.string "forget", .mapping [(.string "tag...", .list [.string "d"])])])]⟩ ""

/-- The layers of `child`, the nearest first. -/
def threeLayersChain : List Layer := [
  ⟨"child", [
    (.string "inherit", .string " middle "),
    (.string "backup", .mapping [(.string "tag", .list [.string "daily"])]),
    (.string "forget", .mapping [(.string "tag...", .list [.string "d"])])]⟩,
  ⟨"middle", [
    (.string "inherit", .string "root"),
    (.string "backup", .tagged "!off" .null),
    (.string "forget", .mapping [
      (.string "...tag", .string "b"),
      (.string "tag", .string "a"),
      (.string "tag...", .list [.string "c"])])]⟩,
  ⟨"root", [
    (.string "description", .string "all"),
    (.string "backup", .mapping [(.string "source", .string "/")]),
    (.string "forget", .mapping [
      (.string "tag", .string "old"),
      (.string "tag...", .string "x")])]⟩]

theorem distinct_threeLayers : threeLayers.document.Distinct := by
  cbv

theorem ancestry_threeLayers : ancestry threeLayers.profiles "child" = .ok threeLayersChain := by
  have hroot : threeLayers.profiles = threeLayers.document.root := by decide
  have hmiddle : parentName? threeLayersChain[0].body = some "middle" := by decide
  have hlast : parentName? threeLayersChain[1].body = some "root" := by decide
  rw [hroot, ancestry, ancestryFrom_parent (by decide) rfl rfl hmiddle,
    ancestryFrom_parent (by decide) rfl rfl hlast,
    ancestryFrom_last (by decide) rfl rfl (by decide)]
  rfl

end BackupProfiles
