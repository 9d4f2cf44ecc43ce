import BackupProfiles.Proofs.Merge.Chain
import BackupProfiles.Proofs.Secrets.Positions

/-!
# Merging hidden bodies

What a merged body shows outside some positions depends on what the bodies show outside them, if the
positions bear merging (`Positions.Mergeable`): the values that a marker can make a list of are
hidden alike inside and outside of a list, and a marker hides no more than its base. Then hiding the
strings of every body before they are merged makes no difference after it (`redact_mergedBody`).
-/

namespace BackupProfiles

namespace Positions

variable {c d : Positions} {f : String → Positions}

/-- What is left of positions after some keys. -/
def along (c : Positions) : List String → Positions
  | [] => c
  | name :: rest => (c.under (.key name)).along rest

/-- The keys of one mapping can be merged. -/
structure MergesHere (c : Positions) : Prop where
  many : ∀ name, ∃ d : Positions, c.under (.key name) = d.many
  marker : ∀ {name marker}, Marker.ofText? name = some marker →
    (c.under (.key name)).Within (c.under (.key marker.base))

def Mergeable (c : Positions) : Prop := ∀ path, (c.along path).MergesHere

theorem Within.many (h : c.Within d) : c.many.Within d.many := by
  intro path hc
  cases path with
  | nil => exact h _ hc
  | cons b rest => cases b <;> exact h _ hc

namespace Mergeable

theorem mergesHere (h : c.Mergeable) : c.MergesHere := h []

theorem under (h : c.Mergeable) (name : String) : (c.under (.key name)).Mergeable :=
  fun path => h (name :: path)

theorem none : Positions.none.Mergeable := by
  have halong : ∀ path, Positions.none.along path = Positions.none := by
    intro path
    induction path with
    | nil => rfl
    | cons name rest ih => exact ih
  intro path
  rw [halong]
  exact ⟨fun _ => ⟨Positions.none, many_none.symm⟩, fun _ => Within.refl _⟩

/-- Positions whose keys lead to mergeable ones, markers to no more than their bases. -/
theorem of_keys (hk : ∀ name, c.under (.key name) = (f name).many)
    (hm : ∀ {name marker}, Marker.ofText? name = some marker → (f name).Within (f marker.base))
    (hf : ∀ name, (f name).Mergeable) : c.Mergeable := by
  intro path
  cases path with
  | nil =>
    refine ⟨fun name => ⟨f name, hk name⟩, fun {name marker} h => ?_⟩
    change (c.under (.key name)).Within (c.under (.key marker.base))
    rw [hk, hk]
    exact (hm h).many
  | cons name rest =>
    change ((c.under (.key name)).along rest).MergesHere
    rw [hk]
    cases rest with
    | nil => exact ⟨(hf name).mergesHere.many, (hf name).mergesHere.marker⟩
    | cons next rest => exact hf name (next :: rest)

end Mergeable

end Positions

theorem Value.items_redact (c : Positions) (v : Value) :
    (v.redact c.many).items = v.items.map (Value.redact c) := by
  cases v with
  | null => simp [items]
  | list items => rw [redact_list_many]; rfl
  | mapping m => rw [redact_many (by simp [kind]), redact_mapping]; simp [items]
  | string s => rw [redact_many (by simp [kind]), redact_string]; simp [items, redact_string]
  | tagged tag content => rw [redact_many (by simp [kind]), redact_tagged]; simp [items]
  | _ => simp [items]

namespace Mapping

variable {c : Positions} {s t : Mapping}

theorem redact_entries {old? new? : Option Value}
    (h : old?.map (Value.redact c) = new?.map (Value.redact c)) :
    redact c ((old?.map Value.mappingEntries).getD []) =
      redact c ((new?.map Value.mappingEntries).getD []) := by
  have hv : ∀ v : Value, redact c v.mappingEntries = (v.redact c).mappingEntries := by
    intro v
    cases v <;> simp [Value.mappingEntries, Value.redact_string]
  have hall : ∀ v? : Option Value, redact c ((v?.map Value.mappingEntries).getD []) =
      ((v?.map (Value.redact c)).map Value.mappingEntries).getD [] := by
    intro v?
    cases v? with
    | none => rfl
    | some v => exact hv v
  rw [hall, hall, h]

theorem redact_applyMarker (hc : c.MergesHere) {name : String} {marker : Marker}
    (hm : Marker.ofText? name = some marker) (h : s.redact c = t.redact c) (v : Value) :
    (s.applyMarker marker (v.redact (c.under (.key name)))).redact c =
      (t.applyMarker marker v).redact c := by
  obtain ⟨d, hd⟩ := hc.many marker.base
  -- the marker hides no more of what it adds than its base hides of it
  have hadded : (v.redact (c.under (.key name))).items.map (Value.redact d) =
      v.items.map (Value.redact d) := by
    rw [← Value.items_redact, ← Value.items_redact, ← hd, Value.redact_redact v (hc.marker hm)]
  have hitems : ∀ v? : Option Value, (itemsOf v?).map (Value.redact d) =
      itemsOf (v?.map (Value.redact d.many)) := by
    intro v?
    cases v? with
    | none => rfl
    | some v => exact (Value.items_redact d v).symm
  have hheld : (itemsOf (s.get? (.string marker.base))).map (Value.redact d) =
      (itemsOf (t.get? (.string marker.base))).map (Value.redact d) := by
    have hget := get?_redact c s (.string marker.base)
    rw [h, get?_redact, Value.keyName_string, hd] at hget
    rw [hitems, hitems, hget]
  rw [applyMarker_eq, applyMarker_eq, redact_insert, redact_insert, redact_erase, redact_erase, h,
    Value.keyName_string, hd, Value.redact_list_many, Value.redact_list_many]
  cases marker.side <;> simp only [extended, List.map_append, hadded, hheld]

theorem redact_applyMarkers (hc : c.MergesHere) (body : Mapping) (h : s.redact c = t.redact c) :
    (applyMarkers s (body.redact c)).redact c = (applyMarkers t body).redact c := by
  induction body generalizing s t with
  | nil => simpa [applyMarkers] using h
  | cons e rest ih =>
    rw [redact_cons]
    rcases hm : Marker.ofKey? e.1 with _ | marker
    · rw [applyMarkers_cons_plain hm, applyMarkers, hm]
      exact ih h
    · obtain ⟨name, hkey, htext⟩ := Marker.ofKey?_eq_some.1 hm
      rw [applyMarkers_cons_marker hm, applyMarkers, hm, hkey, Value.keyName_string]
      exact ih (redact_applyMarker hc htext h e.2)

theorem redact_overlayValue_of_not_mapping {v : Value} {old? new? : Option Value}
    (h : v.mapping? = none) :
    (overlayValue old? (v.redact c)).redact c = (overlayValue new? v).redact c := by
  have hr : (v.redact c).mapping? = none := by rw [Value.mapping?_redact, h]; rfl
  rw [overlayValue_of_not_mapping _ h, overlayValue_of_not_mapping _ hr,
    Value.redact_redact v (Positions.Within.refl c)]

mutual

theorem redact_overlayValue : ∀ (v : Value) {c : Positions} {old? new? : Option Value},
    c.Mergeable → old?.map (Value.redact c) = new?.map (Value.redact c) →
    (overlayValue old? (v.redact c)).redact c = (overlayValue new? v).redact c
  | .mapping body, c, old?, new?, hc, h => by
    rw [Value.redact_mapping, overlayValue, overlayValue, Value.redact_mapping,
      Value.redact_mapping]
    exact congrArg _ (redact_applyMarkers hc.mergesHere body
      (redact_overlayPlain body hc (redact_entries h)))
  | .null, _, _, _, _, _ | .bool _, _, _, _, _, _ | .number _, _, _, _, _, _
  | .string _, _, _, _, _, _ | .list _, _, _, _, _, _ | .tagged _ _, _, _, _, _, _ =>
    redact_overlayValue_of_not_mapping rfl

theorem redact_overlayPlain : ∀ (body : List (Value × Value)) {c : Positions} {s t : Mapping},
    c.Mergeable → s.redact c = t.redact c →
    (overlayPlain s (redact c body)).redact c = (overlayPlain t body).redact c
  | [], c, s, t, _, h => by simpa [overlayPlain] using h
  | (key, v) :: rest, c, s, t, hc, h => by
    rw [redact_cons]
    by_cases hm : Marker.ofKey? key = none
    · have hget : (s.get? key).map (Value.redact (c.under (.key key.keyName))) =
          (t.get? key).map (Value.redact (c.under (.key key.keyName))) := by
        rw [← get?_redact, ← get?_redact, h]
      have hv := redact_overlayValue v (hc.under key.keyName) hget
      rw [overlayPlain_cons_plain hm, overlayPlain_cons_plain hm]
      refine redact_overlayPlain rest hc ?_
      rw [redact_insert, redact_insert, h, hv]
    · rw [overlayPlain_cons_marker hm, overlayPlain_cons_marker hm]
      exact redact_overlayPlain rest hc h

end

theorem redact_overlay (hc : c.Mergeable) (h : s.redact c = t.redact c) (body : Mapping) :
    (s.overlay (body.redact c)).redact c = (t.overlay body).redact c :=
  redact_applyMarkers hc.mergesHere body (redact_overlayPlain body hc h)

theorem redact_without (c : Positions) (m : Mapping) (key : Value) :
    (m.without key).redact c = (m.redact c).without key := by
  unfold without redact
  rw [List.filter_map]
  rfl

end Mapping

variable {c e : Positions}

def Layer.redact (c : Positions) (layer : Layer) : Layer := ⟨layer.name, layer.body.redact c⟩

theorem redact_mergeLayers (hc : c.Mergeable) (layers : List Layer) :
    (mergeLayers (layers.map (Layer.redact c))).redact c = (mergeLayers layers).redact c := by
  induction layers with
  | nil => rfl
  | cons layer older ih =>
    rw [List.map_cons, mergeLayers_cons, mergeLayers_cons]
    refine Mapping.redact_overlay hc ?_ layer.body
    rw [Mapping.redact_erase, Mapping.redact_erase, ih]

theorem bodyOf_redact (c : Positions) (name : String) (v : Value) :
    bodyOf name (v.redact c) = (bodyOf name v).map (Mapping.redact c) := by
  cases v <;> simp [bodyOf, Value.redact_string, Value.kind, Except.map]

theorem parentName?_redact (h : c [.key "inherit"] = false) (body : Mapping) :
    parentName? (body.redact c) = parentName? body := by
  unfold parentName?
  rw [Mapping.get?_redact]
  rcases body.get? (.string "inherit") with _ | v
  · rfl
  · cases v with
    | string s => rw [Option.map_some, Value.redact_string_of_shown h]
    | _ => simp

/-- The walk from a profile to its ancestors goes the same way. -/
theorem ancestryFrom_redact (he : ∀ name, e.under (.key name) = c)
    (hi : c [.key "inherit"] = false) (left : Mapping) (visited : List String) (name : String) :
    ancestryFrom (left.redact e) visited name =
      (ancestryFrom left visited name).map (List.map (Layer.redact c)) := by
  have hget : ∀ left : Mapping, ∀ name, (left.redact e).get? (.string name) =
      (left.get? (.string name)).map (Value.redact c) := by
    intro left name
    rw [Mapping.get?_redact, he]
  fun_induction ancestryFrom left visited name with
  | case1 left visited name hv =>
    rw [ancestryFrom_of_mem (by simpa using hv)]
    rfl
  | case2 left visited name hv h =>
    rw [ancestryFrom_of_none (by simpa using hv) (by rw [hget, h]; rfl)]
    rfl
  | case3 left visited name hv v h why hb =>
    have hredacted := bodyOf_redact c name v
    rw [hb] at hredacted
    rw [ancestryFrom_of_error (by simpa using hv) (by rw [hget, h]; rfl) hredacted]
    rfl
  | case4 left visited name hv v h body hb hp =>
    have hredacted := bodyOf_redact c name v
    rw [hb] at hredacted
    rw [ancestryFrom_last (by simpa using hv) (by rw [hget, h]; rfl) hredacted
      (by rw [parentName?_redact hi, hp])]
    rfl
  | case5 left visited name hv v h body hb parent hp ih =>
    have hredacted := bodyOf_redact c name v
    rw [hb] at hredacted
    rw [ancestryFrom_parent (by simpa using hv) (by rw [hget, h]; rfl) hredacted
      (by rw [parentName?_redact hi, hp]), ← Mapping.redact_without, ih]
    rcases ancestryFrom (left.without (.string name)) (name :: visited) parent with _ | older
    · rfl
    · rfl

/-- Hiding the strings of all bodies first makes no difference to a merged body once they are
hidden, nor to why there is none. -/
theorem redact_mergedBody (hc : c.Mergeable) (he : ∀ name, e.under (.key name) = c)
    (hi : c [.key "inherit"] = false) (profiles : Mapping) (name : String) :
    (mergedBody (profiles.redact e) name).map (Mapping.redact c) =
      (mergedBody profiles name).map (Mapping.redact c) := by
  unfold mergedBody ancestry
  rw [ancestryFrom_redact he hi]
  rcases ancestryFrom profiles [] name with why | layers
  · rfl
  · exact congrArg Except.ok (redact_mergeLayers hc layers)

end BackupProfiles
