import BackupProfiles.Proofs.Document.Lookup
import BackupProfiles.Proofs.Merge.Chain
import Mathlib.Data.List.Chain
import Mathlib.Data.List.Perm.Subperm

/-!
# Where the walk up the parents stops

A trail lists the profiles that a walk up the parents has passed, the requested one first. It passes
no profile twice, so it is no longer than the list of profiles, and every walk stops
(`exists_stop`). How resolving a profile ends follows from where the walk stops (`ancestry_of_stop`,
`resolve_of_stop`).
-/

namespace BackupProfiles

/-- The profiles that a walk from `name` has passed. -/
structure Trail (profiles : Mapping) (name : String) (passed : List Layer) : Prop where
  start : ∀ layer ∈ passed.head?, layer.name = name
  defined : ∀ layer ∈ passed,
    ∃ v, profiles.get? (.string layer.name) = some v ∧ bodyOf layer.name v = .ok layer.body
  linked : passed.IsChain fun child parent => parentName? child.body = some parent.name
  distinct : (passed.map Layer.name).Nodup

/-- The profile that a walk comes to next, if there is one. -/
def nextName? (name : String) (passed : List Layer) : Option String :=
  match passed.getLast? with
  | none => some name
  | some layer => parentName? layer.body

/-- Why a walk stops. -/
inductive Stop where
  /-- The last profile names no parent. -/
  | ended
  /-- The next profile is one that was passed. -/
  | looped (next : String)
  | missing (next : String)
  | malformed (next : String) (found : Kind)
  deriving DecidableEq

namespace Stop

/-- Whether a walk that has passed some profiles stops for a reason. -/
def Holds (profiles : Mapping) (name : String) (passed : List Layer) : Stop → Prop
  | ended => nextName? name passed = none
  | looped next => nextName? name passed = some next ∧ next ∈ passed.map Layer.name
  | missing next => nextName? name passed = some next ∧ profiles.get? (.string next) = none
  | malformed next found => nextName? name passed = some next ∧
      ∃ v, profiles.get? (.string next) = some v ∧ v ≠ .null ∧ v.mapping? = none ∧ v.kind = found

/-- What a walk that stops comes to. -/
def outcome (passed : List Layer) : Stop → Except ConfigError (List Layer)
  | ended => .ok passed
  | looped next => .error (.inheritanceLoop next)
  | missing next =>
    match passed.getLast? with
    | none => .error (.profileNotFound next)
    | some child => .error (.parentNotFound child.name next)
  | malformed next found => .error (.invalidProfile next found)

theorem Holds.eq_ended {profiles : Mapping} {name : String} {passed : List Layer} :
    ∀ {stop : Stop}, stop.Holds profiles name passed → nextName? name passed = none →
      stop = ended
  | .ended, _, _ => rfl
  | .looped _, h, hn | .missing _, h, hn | .malformed _ _, h, hn => by
    rw [Holds, hn] at h
    simp at h

end Stop

variable {profiles left body : Mapping} {name next : String} {passed ahead : List Layer}
  {layer : Layer} {stop : Stop} {v : Value}

theorem bodyOf_eq_error (hn : v ≠ .null) (hm : v.mapping? = none) :
    bodyOf name v = .error (.invalidProfile name v.kind) := by
  cases v with
  | null => exact absurd rfl hn
  | mapping m => simp [Value.mapping?] at hm
  | _ => rfl

theorem bodyOf_cases (name : String) (v : Value) :
    (∃ body, bodyOf name v = .ok body) ∨ (v ≠ .null ∧ v.mapping? = none) := by
  cases v with
  | null => exact Or.inl ⟨_, rfl⟩
  | mapping m => exact Or.inl ⟨_, rfl⟩
  | _ => exact Or.inr ⟨by simp, rfl⟩

namespace Trail

theorem nil (profiles : Mapping) (name : String) : Trail profiles name [] where
  start := by simp
  defined := by simp
  linked := List.isChain_nil
  distinct := List.nodup_nil

/-- A walk goes on to a profile that is defined and new. -/
theorem push (h : Trail profiles name passed) (hnext : nextName? name passed = some next)
    (hnew : next ∉ passed.map Layer.name) (hv : profiles.get? (.string next) = some v)
    (hb : bodyOf next v = .ok body) : Trail profiles name (passed ++ [⟨next, body⟩]) where
  start := by
    intro layer hl
    rcases passed with _ | ⟨first, rest⟩
    · simp only [nextName?, List.getLast?_nil, Option.some.injEq] at hnext
      simp only [List.nil_append, List.head?_cons, Option.mem_def, Option.some.injEq] at hl
      rw [← hl, hnext]
    · exact h.start layer (by simpa using hl)
  defined := by
    intro layer hl
    rcases List.mem_append.1 hl with hl | hl
    · exact h.defined layer hl
    · rw [List.mem_singleton.1 hl]
      exact ⟨v, hv, hb⟩
  linked := by
    refine List.isChain_append.2 ⟨h.linked, List.isChain_singleton _, fun child hc parent hp => ?_⟩
    simp only [List.head?_cons, Option.mem_def, Option.some.injEq] at hc hp
    simp only [nextName?, hc] at hnext
    rw [← hp, hnext]
  distinct := by
    rw [List.map_append, List.nodup_append]
    refine ⟨h.distinct, List.nodup_singleton _, fun a ha b hb => ?_⟩
    rw [List.map_singleton, List.mem_singleton] at hb
    intro hab
    rw [hab, hb] at ha
    exact hnew ha

theorem notMem_of_none (h : Trail profiles name passed)
    (hnone : profiles.get? (.string next) = none) : next ∉ passed.map Layer.name := by
  intro hmem
  obtain ⟨layer, hl, rfl⟩ := List.mem_map.1 hmem
  obtain ⟨v, hv, -⟩ := h.defined layer hl
  rw [hnone] at hv
  cases hv

theorem notMem_of_malformed (h : Trail profiles name passed)
    (hv : profiles.get? (.string next) = some v) (hnull : v ≠ .null) (hmap : v.mapping? = none) :
    next ∉ passed.map Layer.name := by
  intro hmem
  obtain ⟨layer, hl, rfl⟩ := List.mem_map.1 hmem
  obtain ⟨w, hw, hb⟩ := h.defined layer hl
  rw [hv, Option.some.injEq] at hw
  rw [← hw, bodyOf_eq_error hnull hmap] at hb
  cases hb

/-- What a trail passes next is the profile that the walk comes to, and it is new. -/
theorem comesNext (h : Trail profiles name (passed ++ layer :: ahead))
    (hnext : nextName? name passed = some next) :
    layer.name = next ∧ layer.name ∉ passed.map Layer.name ∧
      ∃ v, profiles.get? (.string layer.name) = some v ∧ bodyOf layer.name v = .ok layer.body := by
  refine ⟨?_, fun hmem => ?_, h.defined layer (by simp)⟩
  · rcases hl : passed.getLast? with _ | child
    · have hempty := List.getLast?_eq_none_iff.1 hl
      subst hempty
      simp only [nextName?, List.getLast?_nil, Option.some.injEq] at hnext
      rw [← hnext]
      exact h.start layer (by simp)
    · have hlink := (List.isChain_append.1 h.linked).2.2 child hl layer (by simp)
      simp only [nextName?, hl] at hnext
      rw [hnext, Option.some.injEq] at hlink
      exact hlink.symm
  · have hd := h.distinct
    rw [List.map_append, List.nodup_append] at hd
    exact hd.2.2 _ hmem layer.name (by simp) rfl

theorem linked_next (h : Trail profiles name (passed ++ layer :: ahead)) :
    ∀ next ∈ ahead.head?, parentName? layer.body = some next.name := by
  intro next hnext
  have hlink := (List.isChain_append.1 h.linked).2.1
  rcases ahead with _ | ⟨first, rest⟩
  · simp at hnext
  · simp only [List.head?_cons, Option.mem_def, Option.some.injEq] at hnext
    rw [← hnext]
    exact (List.isChain_cons_cons.1 hlink).1

/-- A walk passes each profile at most once. -/
theorem length_le (h : Trail profiles name passed) : passed.length ≤ profiles.length := by
  have hn : (passed.map fun layer => Value.string layer.name).Nodup := by
    have := h.distinct.map (f := Value.string) fun a b hab => by simpa using hab
    rwa [List.map_map] at this
  have hs : (passed.map fun layer => Value.string layer.name) ⊆ profiles.keys := by
    intro key hk
    obtain ⟨layer, hl, rfl⟩ := List.mem_map.1 hk
    obtain ⟨v, hv, -⟩ := h.defined layer hl
    exact Mapping.mem_keys (Mapping.mem_of_get? hv)
  have := (List.subperm_of_subset hn hs).length_le
  rwa [List.length_map, Mapping.keys, List.length_map] at this

end Trail

/-- A walk stops where it is, or it goes on to one more profile. -/
theorem Trail.stop_or_push (h : Trail profiles name passed) :
    (∃ stop : Stop, stop.Holds profiles name passed) ∨
      ∃ layer, Trail profiles name (passed ++ [layer]) := by
  rcases hnext : nextName? name passed with _ | next
  · exact Or.inl ⟨.ended, hnext⟩
  by_cases hold : next ∈ passed.map Layer.name
  · exact Or.inl ⟨.looped next, hnext, hold⟩
  rcases hv : profiles.get? (.string next) with _ | v
  · exact Or.inl ⟨.missing next, hnext, hv⟩
  rcases bodyOf_cases next v with ⟨body, hb⟩ | ⟨hnull, hmap⟩
  · exact Or.inr ⟨_, h.push hnext hold hv hb⟩
  · exact Or.inl ⟨.malformed next v.kind, hnext, v, hv, hnull, hmap, rfl⟩

/-- A walk takes no more steps than there are profiles that it has not passed. -/
theorem Trail.exists_stop (left : Nat) (h : Trail profiles name passed)
    (hleft : profiles.length ≤ passed.length + left) :
    ∃ (all : List Layer) (stop : Stop), Trail profiles name all ∧ stop.Holds profiles name all := by
  induction left generalizing passed with
  | zero =>
    rcases h.stop_or_push with ⟨stop, hs⟩ | ⟨layer, hpush⟩
    · exact ⟨passed, stop, h, hs⟩
    -- no trail passes one profile more than there are
    · have hle := hpush.length_le
      rw [List.length_append, List.length_singleton] at hle
      omega
  | succ left ih =>
    rcases h.stop_or_push with ⟨stop, hs⟩ | ⟨layer, hpush⟩
    · exact ⟨passed, stop, h, hs⟩
    · refine ih hpush ?_
      rw [List.length_append, List.length_singleton]
      omega

theorem exists_stop (profiles : Mapping) (name : String) :
    ∃ (passed : List Layer) (stop : Stop),
      Trail profiles name passed ∧ stop.Holds profiles name passed :=
  (Trail.nil profiles name).exists_stop profiles.length (by simp)

section Outcome

variable {visited : List String}

/-- A walk that has passed some profiles and stops now. -/
theorem ancestryFrom_of_stop_here (h : Trail profiles name passed)
    (hs : stop.Holds profiles name passed) (hnext : nextName? name passed = some next)
    (hleft : ∀ n ∉ passed.map Layer.name, left.get? (.string n) = profiles.get? (.string n))
    (hvisited : visited = (passed.map Layer.name).reverse) :
    ∃ e, ancestryFrom left visited next = .error e ∧ stop.outcome passed = .error e := by
  have hmem : next ∈ visited ↔ next ∈ passed.map Layer.name := by rw [hvisited, List.mem_reverse]
  cases stop with
  | ended =>
    rw [Stop.Holds, hnext] at hs
    cases hs
  | looped n =>
    obtain ⟨hn, hold⟩ := hs
    rw [hnext, Option.some.injEq] at hn
    subst hn
    exact ⟨_, ancestryFrom_of_mem (hmem.2 hold), rfl⟩
  | missing n =>
    obtain ⟨hn, hnone⟩ := hs
    rw [hnext, Option.some.injEq] at hn
    subst hn
    have hnew : next ∉ passed.map Layer.name := h.notMem_of_none hnone
    refine ⟨_, ancestryFrom_of_none (mt hmem.1 hnew) ((hleft next hnew).trans hnone), ?_⟩
    rw [hvisited, List.head?_reverse, List.getLast?_map, Stop.outcome]
    rcases passed.getLast? with _ | child <;> rfl
  | malformed n found =>
    obtain ⟨hn, v, hv, hnull, hmap, hkind⟩ := hs
    rw [hnext, Option.some.injEq] at hn
    subst hn
    have hnew : next ∉ passed.map Layer.name := h.notMem_of_malformed hv hnull hmap
    refine ⟨_, ancestryFrom_of_error (mt hmem.1 hnew) ((hleft next hnew).trans hv)
      (bodyOf_eq_error hnull hmap), ?_⟩
    rw [hkind, Stop.outcome]

/-- From where a walk has come to, the search goes on as the rest of its trail does. -/
theorem ancestryFrom_of_stop
    (h : Trail profiles name (passed ++ ahead)) (hs : stop.Holds profiles name (passed ++ ahead))
    (hnext : nextName? name passed = some next)
    (hleft : ∀ n ∉ passed.map Layer.name, left.get? (.string n) = profiles.get? (.string n))
    (hvisited : visited = (passed.map Layer.name).reverse) :
    (ancestryFrom left visited next).map (passed ++ ·) = stop.outcome (passed ++ ahead) := by
  -- one step moves the first profile ahead to those passed, and off the profiles that are left
  induction ahead generalizing passed left visited next with
  | nil =>
    rw [List.append_nil] at h hs ⊢
    obtain ⟨e, ha, ho⟩ := ancestryFrom_of_stop_here h hs hnext hleft hvisited
    rw [ha, ho]
    rfl
  | cons layer ahead ih =>
    obtain ⟨rfl, hnew, v, hv, hb⟩ := h.comesNext hnext
    have hmem : layer.name ∉ visited := by rwa [hvisited, List.mem_reverse]
    have hget := (hleft layer.name hnew).trans hv
    have hlast : nextName? name (passed ++ [layer]) = parentName? layer.body := by
      rw [nextName?, List.getLast?_concat]
    rcases hp : parentName? layer.body with _ | parent
    · have hahead : ahead = [] := by
        rcases ahead with _ | ⟨first, rest⟩
        · rfl
        · have hlink := h.linked_next first (by simp)
          rw [hp] at hlink
          cases hlink
      subst hahead
      rw [hs.eq_ended (hlast.trans hp), ancestryFrom_last hmem hget hb hp]
      rfl
    · rw [List.append_cons] at h hs ⊢
      have hrest : (ancestryFrom (left.without (.string layer.name)) (layer.name :: visited)
          parent).map (passed ++ [layer] ++ ·) = stop.outcome (passed ++ [layer] ++ ahead) := by
        refine ih h hs (hlast.trans hp) ?_ ?_
        · intro n hn
          rw [List.map_append, List.mem_append, not_or, List.map_singleton,
            List.mem_singleton] at hn
          rw [Mapping.get?_without, if_neg, hleft n hn.1]
          rw [Value.sameKey_string]
          exact fun heq => hn.2 (Value.string.inj heq).symm
        · rw [hvisited, List.map_append, List.reverse_append]
          rfl
      rw [ancestryFrom_parent hmem hget hb hp, ← hrest]
      rcases ancestryFrom (left.without (.string layer.name)) (layer.name :: visited) parent
        with e | layers
      · rfl
      · simp [Except.map]

/-- What the search for the ancestors comes to follows from where the walk stops. -/
theorem ancestry_of_stop (h : Trail profiles name passed) (hs : stop.Holds profiles name passed) :
    ancestry profiles name = stop.outcome passed := by
  have hall : (ancestryFrom profiles [] name).map ([] ++ ·) = stop.outcome ([] ++ passed) :=
    ancestryFrom_of_stop h hs rfl (fun _ _ => rfl) rfl
  rw [List.nil_append] at hall
  rw [ancestry, ← hall]
  rcases ancestryFrom profiles [] name with e | layers <;> rfl

end Outcome

namespace Config

variable {c : Config} {s : Surroundings} {e : ConfigError}

theorem resolve_of_ancestry_error (h : ancestry c.profiles name = .error e) :
    c.resolve s name = ⟨.error e, []⟩ := by
  rw [resolve, mergedBody, h]
  rfl

/-- A profile whose ancestors are found fails only when its merged body cannot be read. -/
theorem unreadable_of_resolve_error (h : ancestry c.profiles name = .ok passed)
    (hr : (c.resolve s name).result = .error e) : ∃ f, e = .unreadable name f := by
  rw [resolve, mergedBody_of_ancestry h] at hr
  dsimp only at hr
  split at hr
  · rename_i f _
    exact ⟨f, (Except.error.inj hr).symm⟩
  · cases hr

end Config

/-- A walk ends with a profile that is not found exactly when the requested one is not there. -/
theorem Stop.Holds.outcome_eq_notFound (h : Trail profiles name passed)
    (hs : stop.Holds profiles name passed) {n : String} :
    stop.outcome passed = .error (.profileNotFound n) ↔
      n = name ∧ profiles.get? (.string name) = none := by
  rcases passed with _ | ⟨first, rest⟩
  · cases stop with
    | ended => exact absurd hs (by simp [Holds, nextName?])
    | looped next => exact absurd hs.2 (by simp)
    | missing next =>
      obtain ⟨hn, hnone⟩ := hs
      rw [nextName?, List.getLast?_nil, Option.some.injEq] at hn
      subst hn
      simp [outcome, hnone, eq_comm]
    | malformed next found =>
      obtain ⟨hn, v, hv, -⟩ := hs
      rw [nextName?, List.getLast?_nil, Option.some.injEq] at hn
      subst hn
      simp [outcome, hv]
  · obtain ⟨v, hv, -⟩ := h.defined first (by simp)
    rw [h.start first (by simp)] at hv
    rw [hv]
    cases stop with
    | missing next => simp [outcome, List.getLast?_cons]
    | _ => simp [outcome]

namespace Config

/-- The walk up the parents of a profile stops, and where it stops decides what resolving the
profile comes to. -/
theorem resolve_of_stop (c : Config) (s : Surroundings) (name : String) :
    (∃ passed stop, Trail c.profiles name passed ∧ Stop.Holds c.profiles name passed stop) ∧
    (∀ passed stop, Trail c.profiles name passed → Stop.Holds c.profiles name passed stop →
      passed.length ≤ c.profiles.length ∧
      ancestry c.profiles name = stop.outcome passed ∧
      (stop = .ended → passed ≠ [] ∧ mergedBody c.profiles name = .ok (mergeLayers passed) ∧
        ∀ e, (c.resolve s name).result = .error e → ∃ f, e = .unreadable name f) ∧
      (∀ e, stop.outcome passed = .error e → c.resolve s name = ⟨.error e, []⟩)) ∧
    ∀ n, (c.resolve s name).result = .error (.profileNotFound n) ↔
      n = name ∧ c.hasProfile name = false := by
  refine ⟨exists_stop _ _, fun passed stop h hs => ?_, fun n => ?_⟩
  · have hall := ancestry_of_stop h hs
    refine ⟨h.length_le, hall, fun hended => ?_, fun e he => ?_⟩
    · subst hended
      refine ⟨fun hempty => ?_, mergedBody_of_ancestry hall,
        fun e he => unreadable_of_resolve_error hall he⟩
      rw [hempty] at hs
      cases hs
    · exact resolve_of_ancestry_error (hall.trans he)
  · obtain ⟨passed, stop, h, hs⟩ := exists_stop c.profiles name
    have hall := ancestry_of_stop h hs
    rw [hasProfile_eq_false, ← hs.outcome_eq_notFound h, ← hall]
    rcases hr : ancestry c.profiles name with e | layers
    · rw [resolve_of_ancestry_error hr, Except.error.injEq, Except.error.injEq]
    · refine ⟨fun he => ?_, fun he => by cases he⟩
      obtain ⟨f, hf⟩ := unreadable_of_resolve_error hr he
      cases hf

/-- A configuration whose profile `tail` inherits from a circle of two. -/
def circle : Config := .ofDocument ⟨[
  (.string "tail", .mapping [(.string "inherit", .string "even")]),
  (.string "even", .mapping [(.string "inherit", .string " odd")]),
  (.string "odd", .mapping [(.string "inherit", .string "even")])]⟩ ""

/-- The layers that the walk from `tail` passes. -/
def circleLayers : List Layer := [
  ⟨"tail", [(.string "inherit", .string "even")]⟩,
  ⟨"even", [(.string "inherit", .string " odd")]⟩,
  ⟨"odd", [(.string "inherit", .string "even")]⟩]

theorem resolve_of_stop_circle :
    Trail circle.profiles "tail" circleLayers ∧
      Stop.Holds circle.profiles "tail" circleLayers (.looped "even") ∧
      circleLayers.length ≤ circle.profiles.length ∧
      circle.resolve default "tail" = ⟨.error (.inheritanceLoop "even"), []⟩ := by
  have hprofiles : circle.profiles = circle.document.root := by decide
  have htrail : Trail circle.profiles "tail" circleLayers := by
    rw [hprofiles]
    exact {
      start := by decide
      defined := by
        simp only [circleLayers, List.forall_mem_cons]
        exact ⟨⟨_, rfl, rfl⟩, ⟨_, rfl, rfl⟩, ⟨_, rfl, rfl⟩, by simp⟩
      linked := by
        simp only [circleLayers, List.isChain_cons_cons, List.isChain_singleton]
        decide
      distinct := by decide }
  have hstop : Stop.Holds circle.profiles "tail" circleLayers (.looped "even") := by
    rw [hprofiles]
    exact ⟨by decide, by decide⟩
  obtain ⟨hlength, -, -, herror⟩ := (resolve_of_stop circle default "tail").2.1 _ _ htrail hstop
  exact ⟨htrail, hstop, hlength, herror _ rfl⟩

end Config

end BackupProfiles
