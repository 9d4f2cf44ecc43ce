import BackupProfiles.Proofs.Inheritance.Trail

/-!
# Resolving over the parent

A profile that names a parent is its body laid over the merged parent. The walk from the profile is
the walk from its parent with one profile in front (`Trail.cons`), and it stops for the same reason
(`Stop.Holds.cons`). Only where the walk from the parent comes to the profile itself do the two part:
then both go round, each back to where it began (`Trail.looped_of_mem`).
-/

namespace BackupProfiles

variable {profiles body : Mapping} {child parent : String} {passed before ahead : List Layer}
  {layer : Layer} {stop : Stop} {v : Value}

theorem nextName?_cons (child : String) (hp : parentName? layer.body = some parent)
    (passed : List Layer) : nextName? child (layer :: passed) = nextName? parent passed := by
  unfold nextName?
  rw [List.getLast?_cons]
  rcases passed.getLast? with _ | final
  · exact hp
  · rfl

namespace Trail

/-- A trail can be followed for a part of its way. -/
theorem of_append (h : Trail profiles parent (passed ++ ahead)) : Trail profiles parent passed where
  start layer hl := h.start layer (by simp [List.head?_append, Option.mem_def.1 hl])
  defined layer hl := h.defined layer (List.mem_append_left _ hl)
  linked := (List.isChain_append.1 h.linked).1
  distinct := by
    have hd := h.distinct
    rw [List.map_append] at hd
    exact (List.nodup_append.1 hd).1

/-- The next profile on a trail is the one that the walk comes to. -/
theorem nextName?_of_append (h : Trail profiles parent (passed ++ layer :: ahead)) :
    nextName? parent passed = some layer.name := by
  unfold nextName?
  rcases hl : passed.getLast? with _ | final
  · rw [List.getLast?_eq_none_iff] at hl
    subst hl
    rw [h.start layer rfl]
  · exact (List.isChain_append.1 h.linked).2.2 final hl layer rfl

theorem mem_of_ne_nil (h : Trail profiles parent passed) (hne : passed ≠ []) :
    parent ∈ passed.map Layer.name := by
  rcases passed with _ | ⟨first, rest⟩
  · exact absurd rfl hne
  · rw [← h.start first rfl]
    exact List.mem_cons_self

/-- The trail of the parent is one of the child, behind the child itself. -/
theorem cons (h : Trail profiles parent passed) (hv : profiles.get? (.string child) = some v)
    (hb : bodyOf child v = .ok body) (hp : parentName? body = some parent)
    (hnew : child ∉ passed.map Layer.name) : Trail profiles child (⟨child, body⟩ :: passed) where
  start := by
    intro layer hl
    simp only [List.head?_cons, Option.mem_def, Option.some.injEq] at hl
    rw [← hl]
  defined := by
    intro layer hl
    rcases List.mem_cons.1 hl with rfl | hl
    · exact ⟨v, hv, hb⟩
    · exact h.defined layer hl
  linked := by
    refine List.isChain_cons.2 ⟨fun first hfirst => ?_, h.linked⟩
    rw [h.start first hfirst]
    exact hp
  distinct := List.nodup_cons.2 ⟨hnew, h.distinct⟩

end Trail

namespace Stop

/-- A walk stops for the same reason with one more profile in front. -/
theorem Holds.cons (hs : stop.Holds profiles parent passed)
    (hp : parentName? layer.body = some parent) : stop.Holds profiles child (layer :: passed) := by
  have hnext := nextName?_cons child hp passed
  cases stop with
  | ended => exact hnext.trans hs
  | looped next => exact ⟨hnext.trans hs.1, List.mem_cons_of_mem _ hs.2⟩
  | missing next => exact ⟨hnext.trans hs.1, hs.2⟩
  | malformed next found => exact ⟨hnext.trans hs.1, hs.2⟩

end Stop

/-- Where the walk from the parent comes to the child, its next step is back to the parent. So both
walks go round, each to where it began. -/
theorem Trail.looped_of_mem (h : Trail profiles parent passed)
    (hv : profiles.get? (.string child) = some v) (hb : bodyOf child v = .ok body)
    (hp : parentName? body = some parent) (hmem : child ∈ passed.map Layer.name) :
    ancestry profiles parent = .error (.inheritanceLoop parent) ∧
      ancestry profiles child = .error (.inheritanceLoop child) := by
  obtain ⟨layer, hl, rfl⟩ := List.mem_map.1 hmem
  obtain ⟨before, ahead, rfl⟩ := List.append_of_mem hl
  have hnext : nextName? parent before = some layer.name := h.nextName?_of_append
  obtain ⟨-, hnew, w, hw, hlb⟩ := h.comesNext hnext
  have hbody : layer.body = body := by
    rw [hv, Option.some.injEq] at hw
    rw [← hw, hb] at hlb
    exact (Except.ok.inj hlb).symm
  constructor
  · -- the trail up to the child ends there, since its parent stands at the front
    have hround : Trail profiles parent (before ++ [layer]) := by
      rw [List.append_cons] at h
      exact h.of_append
    have hback : nextName? parent (before ++ [layer]) = some parent := by
      rw [nextName?, List.getLast?_concat, ← hp, ← hbody]
    have hstop : Stop.Holds profiles parent (before ++ [layer]) (.looped parent) :=
      ⟨hback, hround.mem_of_ne_nil (by simp)⟩
    exact ancestry_of_stop hround hstop
  · have hround := h.of_append.cons hv hb hp hnew
    have hstop : Stop.Holds profiles layer.name (⟨layer.name, body⟩ :: before)
        (.looped layer.name) := ⟨(nextName?_cons _ hp before).trans hnext, List.mem_cons_self⟩
    exact ancestry_of_stop hround hstop

/-- What the search for the ancestors of a profile comes to follows from the walk from its parent. -/
theorem Trail.ancestry_child (h : Trail profiles parent passed)
    (hs : stop.Holds profiles parent passed) (hv : profiles.get? (.string child) = some v)
    (hb : bodyOf child v = .ok body) (hp : parentName? body = some parent)
    (hnew : child ∉ passed.map Layer.name) :
    ancestry profiles child = stop.outcome (⟨child, body⟩ :: passed) :=
  ancestry_of_stop (h.cons hv hb hp hnew) (hs.cons hp)

theorem mergedBody_eq_error_iff {name : String} {e : ConfigError} :
    mergedBody profiles name = .error e ↔ ancestry profiles name = .error e := by
  rw [mergedBody]
  rcases ancestry profiles name with _ | layers <;> simp [Except.map]

namespace Config

/-- A profile whose body names a parent. It merges to its body laid over the merged parent without
the description. Where the parent is not there, the profile misses it; where an ancestor of the
parent is not there or is malformed, the profile fails as the parent does; and where the parent
comes round to an ancestor, so does the profile, to the same one or to itself. -/
theorem mergedBody_of_parent {c : Config} {child parent : String} {body : Mapping}
    (hbody : c.profileValue? child = some (.mapping body))
    (hparent : parentName? body = some parent) :
    (∀ merged, mergedBody c.profiles parent = .ok merged →
      mergedBody c.profiles child = .ok ((merged.erase descriptionKey).overlay body)) ∧
    (mergedBody c.profiles parent = .error (.profileNotFound parent) →
      mergedBody c.profiles child = .error (.parentNotFound child parent)) ∧
    (∀ name ancestor, mergedBody c.profiles parent = .error (.parentNotFound name ancestor) →
      mergedBody c.profiles child = .error (.parentNotFound name ancestor)) ∧
    (∀ name found, mergedBody c.profiles parent = .error (.invalidProfile name found) →
      mergedBody c.profiles child = .error (.invalidProfile name found)) ∧
    (∀ name, mergedBody c.profiles parent = .error (.inheritanceLoop name) →
      mergedBody c.profiles child = .error (.inheritanceLoop name) ∨
        mergedBody c.profiles child = .error (.inheritanceLoop child)) := by
  rw [profileValue?_eq] at hbody
  obtain ⟨passed, stop, htrail, hstop⟩ := exists_stop c.profiles parent
  have hp := ancestry_of_stop htrail hstop
  simp only [mergedBody_eq_error_iff]
  by_cases hnew : child ∈ passed.map Layer.name
  · obtain ⟨hround, hchild⟩ := htrail.looped_of_mem hbody rfl hparent hnew
    rw [mergedBody_eq_error_iff.2 hround, hround, hchild]
    simp
  have hc := htrail.ancestry_child hstop hbody rfl hparent hnew
  cases stop with
  | ended =>
    rw [mergedBody_of_ancestry hp, mergedBody_of_ancestry hc, hp, mergeLayers_cons]
    simp [Stop.outcome]
  | looped next =>
    rw [mergedBody_eq_error_iff.2 hp, hp, hc]
    simp [Stop.outcome]
  | missing next =>
    rcases passed with _ | ⟨first, rest⟩
    · rw [mergedBody_eq_error_iff.2 hp, hp, hc]
      simp [Stop.outcome]
    · rw [Stop.outcome, List.getLast?_cons] at hp
      rw [Stop.outcome, List.getLast?_cons, List.getLast?_cons, Option.getD_some] at hc
      rw [mergedBody_eq_error_iff.2 hp, hp, hc]
      simp
  | malformed next found =>
    rw [mergedBody_eq_error_iff.2 hp, hp, hc]
    simp [Stop.outcome]

/-- What the profile `root` of three layers merges to. -/
def rootMerged : Mapping := [
  (.string "description", .string "all"),
  (.string "backup", .mapping [(.string "source", .string "/")]),
  (.string "forget", .mapping [(.string "tag", .list [.string "old", .string "x"])])]

theorem mergedBody_of_parent_threeLayers :
    threeLayers.profileValue? "middle" = some (.mapping threeLayersChain[1].body) ∧
    parentName? threeLayersChain[1].body = some "root" ∧
    mergedBody threeLayers.profiles "root" = .ok rootMerged ∧
    mergedBody threeLayers.profiles "middle" = .ok [
      (.string "forget", .mapping [
        (.string "tag", .list [.string "b", .string "a", .string "c"])]),
      (.string "backup", .tagged "!off" .null),
      (.string "inherit", .string "root")] := by
  have hbody : threeLayers.profileValue? "middle" = some (.mapping threeLayersChain[1].body) := by
    decide +kernel
  have hparent : parentName? threeLayersChain[1].body = some "root" := by decide
  have hroot : mergedBody threeLayers.profiles "root" = .ok rootMerged := by
    have hprofiles : threeLayers.profiles = threeLayers.document.root := by decide
    rw [hprofiles, mergedBody, ancestry, ancestryFrom_last (by decide) rfl rfl (by decide)]
    exact congrArg Except.ok (by decide +kernel)
  refine ⟨hbody, hparent, hroot, ?_⟩
  rw [(mergedBody_of_parent hbody hparent).1 _ hroot]
  exact congrArg Except.ok (by decide +kernel)

end Config

end BackupProfiles
