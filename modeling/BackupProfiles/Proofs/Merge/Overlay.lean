import BackupProfiles.Proofs.Merge.Marker
import BackupProfiles.Proofs.Value.Tidy

/-!
# What a layer does to a key

Laying a body over a mapping first writes the plain keys, each over what the key stood for, and
then lets every marker rewrite the list of its base. So a key that is no marker and that no marker
of the body names depends on the two values of that key alone (`get?_overlay`), and the base of
markers ends up with the items of its front marker, the items it held and those of its back marker
(`get?_overlay_base`). A tidy mapping stays tidy.
-/

namespace BackupProfiles.Mapping

variable {target body rest : Mapping} {key : Value}

/-- The entries of the mapping that a key stands for, none if it stands for something else. -/
def entriesAt (m : Mapping) (key : Value) : Mapping :=
  ((m.get? key).map Value.mappingEntries).getD []

/-- The items of a value, if there is one. -/
def itemsOf (v? : Option Value) : List Value := (v?.map Value.items).getD []

/-- No key is a marker. -/
def Unmarked (m : Mapping) : Prop := ∀ e ∈ m, Marker.ofKey? e.1 = none

/-- Some key is a marker for another. -/
def Names (m : Mapping) (key : Value) : Prop :=
  ∃ e ∈ m, (Marker.ofKey? e.1).map (fun marker => .string marker.base) = some key

instance (m : Mapping) : Decidable m.Unmarked :=
  inferInstanceAs (Decidable (∀ e ∈ m, Marker.ofKey? e.1 = none))

instance (m : Mapping) (key : Value) : Decidable (m.Names key) :=
  inferInstanceAs (Decidable (∃ e ∈ m, _ = some key))

/-- What a key stands for when a new value, if there is one, is laid over the old one. -/
def overlayValue? (old? : Option Value) : Option Value → Option Value
  | some v => some (overlayValue old? v)
  | none => old?

theorem overlayValue_mapping (old? : Option Value) (body : Mapping) :
    overlayValue old? (.mapping body) =
      .mapping (overlay ((old?.map Value.mappingEntries).getD []) body) := by
  rw [overlayValue, overlay]

theorem overlayValue_of_not_mapping (old? : Option Value) :
    ∀ {v : Value}, v.mapping? = none → overlayValue old? v = v
  | .mapping m, h => by simp [Value.mapping?] at h
  | .null, _ | .bool _, _ | .number _, _ | .string _, _ | .list _, _ | .tagged _ _, _ => by
    simp [overlayValue]

section Plain

theorem overlayPlain_cons_marker {e : Value × Value} (h : Marker.ofKey? e.1 ≠ none) :
    overlayPlain target (e :: rest) = overlayPlain target rest := by
  rw [overlayPlain]
  split
  · rfl
  · rename_i hn
    exact absurd hn h

theorem overlayPlain_cons_plain {e : Value × Value} (h : Marker.ofKey? e.1 = none) :
    overlayPlain target (e :: rest) =
      overlayPlain (target.insert e.1 (overlayValue (target.get? e.1) e.2)) rest := by
  rw [overlayPlain, h]

theorem get?_overlayPlain (hb : body.Distinct) (hk : Marker.ofKey? key = none) :
    (overlayPlain target body).get? key = overlayValue? (target.get? key) (body.get? key) := by
  induction body generalizing target with
  | nil => rw [overlayPlain]; rfl
  | cons e rest ih =>
    rw [distinct_cons] at hb
    rw [get?_cons]
    by_cases he : e.1.sameKey key = true
    · have hnone : get? rest key = none := (get?_congr he rest).symm.trans hb.1
      rw [overlayPlain_cons_plain ((Marker.ofKey?_congr he).trans hk), ih hb.2, hnone, if_pos he,
        get?_insert, if_pos he, get?_congr he]
      rfl
    · rw [if_neg he]
      by_cases hm : Marker.ofKey? e.1 = none
      · rw [overlayPlain_cons_plain hm, ih hb.2, get?_insert, if_neg he]
      · rw [overlayPlain_cons_marker hm, ih hb.2]

theorem get?_overlayPlain_marker (hk : Marker.ofKey? key ≠ none) :
    (overlayPlain target body).get? key = target.get? key := by
  induction body generalizing target with
  | nil => rw [overlayPlain]
  | cons e rest ih =>
    by_cases hm : Marker.ofKey? e.1 = none
    · have he : ¬ e.1.sameKey key = true := fun he => hk (Marker.ofKey?_congr he ▸ hm)
      rw [overlayPlain_cons_plain hm, ih, get?_insert, if_neg he]
    · rw [overlayPlain_cons_marker hm, ih]

theorem Distinct.overlayPlain (ht : target.Distinct) :
    (Mapping.overlayPlain target body).Distinct := by
  induction body generalizing target with
  | nil => rwa [Mapping.overlayPlain]
  | cons e rest ih =>
    by_cases hm : Marker.ofKey? e.1 = none
    · rw [overlayPlain_cons_plain hm]
      exact ih (ht.insert _ _)
    · rw [overlayPlain_cons_marker hm]
      exact ih ht

end Plain

section Markers

variable {marker : Marker} {v : Value}

/-- The items of a list with more at one end. -/
def extended (side : ListEnd) (held extra : List Value) : List Value :=
  match side with
  | .front => extra ++ held
  | .back => held ++ extra

theorem applyMarkers_cons_plain {e : Value × Value} (h : Marker.ofKey? e.1 = none) :
    applyMarkers target (e :: rest) = applyMarkers target rest := by
  rw [applyMarkers, h]

theorem applyMarkers_cons_marker {e : Value × Value} (h : Marker.ofKey? e.1 = some marker) :
    applyMarkers target (e :: rest) = applyMarkers (target.applyMarker marker e.2) rest := by
  rw [applyMarkers, h]

theorem applyMarker_eq : target.applyMarker marker v = (target.erase (.string marker.base)).insert
    (.string marker.base)
    (.list (extended marker.side (itemsOf (target.get? (.string marker.base))) v.items)) := by
  unfold applyMarker extended itemsOf
  cases marker.side <;> rfl

theorem Distinct.applyMarker (ht : target.Distinct) (marker : Marker) (v : Value) :
    (target.applyMarker marker v).Distinct := by
  rw [applyMarker_eq]
  exact (ht.erase _).insert _ _

theorem get?_applyMarker (ht : target.Distinct) :
    (target.applyMarker marker v).get? key =
      if key = .string marker.base then
        some (.list (extended marker.side (itemsOf (target.get? key)) v.items))
      else target.get? key := by
  rw [applyMarker_eq, get?_insert]
  by_cases h : key = .string marker.base
  · rw [if_pos (Value.string_sameKey.2 h), if_pos h, h]
  · rw [if_neg (mt Value.string_sameKey.1 h), if_neg h, get?_erase ht,
      if_neg (mt Value.string_sameKey.1 h)]

theorem applyMarkers_of_unmarked (h : body.Unmarked) : applyMarkers target body = target := by
  induction body with
  | nil => rw [applyMarkers]
  | cons e rest ih =>
    rw [applyMarkers_cons_plain (h e List.mem_cons_self)]
    exact ih fun a ha => h a (List.mem_cons_of_mem _ ha)

theorem get?_applyMarkers_of_not_names (ht : target.Distinct) (h : ¬ body.Names key) :
    (applyMarkers target body).get? key = target.get? key := by
  induction body generalizing target with
  | nil => rw [applyMarkers]
  | cons e rest ih =>
    have hrest : ¬ Names rest key := fun ⟨a, ha, hm⟩ => h ⟨a, List.mem_cons_of_mem _ ha, hm⟩
    rcases hm : Marker.ofKey? e.1 with _ | marker
    · rw [applyMarkers_cons_plain hm, ih ht hrest]
    · have hne : key ≠ .string marker.base :=
        fun hb => h ⟨e, List.mem_cons_self, by rw [hm, Option.map_some, hb]⟩
      rw [applyMarkers_cons_marker hm, ih (ht.applyMarker _ _) hrest, get?_applyMarker ht,
        if_neg hne]

/-- What a base stands for once its markers have acted: a list with the items of the front marker,
those held so far and those of the back marker. -/
def gathered (front? held? back? : Option Value) : Option Value :=
  match front?, back? with
  | none, none => held?
  | _, _ => some (.list (itemsOf front? ++ itemsOf held? ++ itemsOf back?))

/-- The value of the key that is a marker, if there is one. -/
def markerValue? (m : Mapping) (marker : Marker) : Option Value :=
  if Marker.ofKey? marker.key = some marker then m.get? marker.key else none

theorem markerValue?_cons (e : Value × Value) (rest : Mapping) (marker : Marker) :
    markerValue? (e :: rest) marker =
      if Marker.ofKey? e.1 = some marker then some e.2 else markerValue? rest marker := by
  unfold markerValue?
  by_cases he : Marker.ofKey? e.1 = some marker
  · have hkey := Marker.eq_key_of_ofKey? he
    rw [if_pos he, if_pos (hkey ▸ he), get?_cons, if_pos (Marker.sameKey_key marker |>.2 hkey)]
  · rw [if_neg he, get?_cons]
    split
    · rename_i hm
      rw [if_neg fun hsame => he (by rw [(Marker.sameKey_key marker).1 hsame, hm])]
    · rfl

theorem markerValue?_eq_none (h : body.get? key = none) {marker : Marker}
    (hm : Marker.ofKey? key = some marker) : body.markerValue? marker = none := by
  rw [markerValue?, ← Marker.eq_key_of_ofKey? hm, if_pos hm, h]

/-- With no key twice a body has at most one marker for either end, so their order is no matter. -/
theorem get?_applyMarkers_base (ht : target.Distinct) (hb : body.Distinct) (base : String) :
    (applyMarkers target body).get? (.string base) =
      gathered (body.markerValue? ⟨base, .front⟩) (target.get? (.string base))
        (body.markerValue? ⟨base, .back⟩) := by
  induction body generalizing target with
  | nil =>
    have hnil : ∀ marker, markerValue? [] marker = none := fun marker => by simp [markerValue?]
    rw [applyMarkers, hnil, hnil]
    rfl
  | cons e rest ih =>
    rw [distinct_cons] at hb
    rw [markerValue?_cons, markerValue?_cons]
    rcases hm : Marker.ofKey? e.1 with _ | marker
    · rw [applyMarkers_cons_plain hm, ih ht hb.2, if_neg (by simp), if_neg (by simp)]
    · rw [applyMarkers_cons_marker hm, ih (ht.applyMarker _ _) hb.2, get?_applyMarker ht]
      have hrest : markerValue? rest marker = none := markerValue?_eq_none hb.1 hm
      by_cases hbase : marker.base = base
      · subst hbase
        obtain ⟨base, _ | _⟩ := marker
        · rw [hrest, if_pos rfl, if_pos rfl, if_neg (by simp)]
          rcases markerValue? rest ⟨base, .back⟩ with _ | v <;>
            simp [gathered, itemsOf, extended, Value.items]
        · rw [hrest, if_pos rfl, if_pos rfl, if_neg (by simp)]
          rcases markerValue? rest ⟨base, .front⟩ with _ | v <;>
            simp [gathered, itemsOf, extended, Value.items]
      · have hother : ∀ side, some marker ≠ some ⟨base, side⟩ := by
          intro side h
          exact hbase (congrArg Marker.base (Option.some.inj h))
        rw [if_neg (by simpa using Ne.symm hbase), if_neg (hother .front), if_neg (hother .back)]

theorem get?_applyMarkers {base : String} (hn : Marker.Nameable base) (ht : target.Distinct)
    (hb : body.Distinct) :
    (applyMarkers target body).get? (.string base) =
      gathered (body.get? (Marker.frontKey base)) (target.get? (.string base))
        (body.get? (Marker.backKey base)) := by
  have hfront : body.markerValue? ⟨base, .front⟩ = body.get? (Marker.frontKey base) :=
    if_pos (hn.ofKey?_eq_front.2 rfl)
  have hback : body.markerValue? ⟨base, .back⟩ = body.get? (Marker.backKey base) :=
    if_pos (hn.ofKey?_eq_back.2 rfl)
  rw [get?_applyMarkers_base ht hb, hfront, hback]

end Markers

section Overlay

theorem overlay_nil (target : Mapping) : target.overlay [] = target := by
  rw [overlay, overlayPlain, applyMarkers]

/-- A key that is no marker and that the body has no marker for. -/
theorem get?_overlay (ht : target.Distinct) (hb : body.Distinct)
    (hk : Marker.ofKey? key = none) (hn : ¬ body.Names key) :
    (target.overlay body).get? key = overlayValue? (target.get? key) (body.get? key) := by
  rw [overlay, get?_applyMarkers_of_not_names ht.overlayPlain hn, get?_overlayPlain hb hk]

/-- A body without markers acts on every key alone, whatever it is laid over. -/
theorem get?_overlay_of_unmarked (hb : body.Distinct) (hu : body.Unmarked) (key : Value) :
    (target.overlay body).get? key = overlayValue? (target.get? key) (body.get? key) := by
  rw [overlay, applyMarkers_of_unmarked hu]
  by_cases hk : Marker.ofKey? key = none
  · exact get?_overlayPlain hb hk
  · have hnone : body.get? key = none := by
      refine get?_eq_none_iff.2 fun k hmem => Bool.eq_false_iff.2 fun hsame => hk ?_
      obtain ⟨e, he, rfl⟩ := List.mem_map.1 hmem
      rw [← Marker.ofKey?_congr hsame]
      exact hu e he
    rw [get?_overlayPlain_marker hk, hnone]
    rfl

/-- The base of markers gathers what its plain value and the older value come to. -/
theorem get?_overlay_base {base : String} (hn : Marker.Nameable base) (ht : target.Distinct)
    (hb : body.Distinct) :
    (target.overlay body).get? (.string base) =
      gathered (body.get? (Marker.frontKey base))
        (overlayValue? (target.get? (.string base)) (body.get? (.string base)))
        (body.get? (Marker.backKey base)) := by
  rw [overlay, get?_applyMarkers hn ht.overlayPlain hb,
    get?_overlayPlain hb hn.ofKey?_string]

end Overlay

section Tidy

theorem tidy_applyMarkers (ht : (Value.mapping target).Tidy) :
    (Value.mapping (applyMarkers target body)).Tidy := by
  induction body generalizing target with
  | nil => rwa [applyMarkers]
  | cons e rest ih =>
    rcases hm : Marker.ofKey? e.1 with _ | marker
    · rw [applyMarkers_cons_plain hm]
      exact ih ht
    · rw [applyMarkers_cons_marker hm, applyMarker_eq]
      exact ih ((ht.erase _).insert (.leaf rfl))

theorem tidy_entries {old? : Option Value} (h : ∀ v, old? = some v → v.Tidy) :
    (Value.mapping ((old?.map Value.mappingEntries).getD [])).Tidy := by
  rcases old? with _ | v
  · exact Value.Tidy.nil
  · cases v with
    | mapping m => exact h _ rfl
    | _ => exact Value.Tidy.nil

mutual

theorem tidy_overlayValue : ∀ (v : Value) {old? : Option Value},
    (∀ w, old? = some w → w.Tidy) → (overlayValue old? v).Tidy
  | .mapping body, old?, h => by
    rw [overlayValue]
    exact tidy_applyMarkers (tidy_overlayPlain body (tidy_entries h))
  | .null, _, _ | .bool _, _, _ | .number _, _, _ | .string _, _, _ | .list _, _, _
  | .tagged _ _, _, _ => .leaf (by simp [overlayValue, Value.mapping?])

theorem tidy_overlayPlain : ∀ (body : List (Value × Value)) {target : Mapping},
    (Value.mapping target).Tidy → (Value.mapping (overlayPlain target body)).Tidy
  | [], _, ht => by rwa [overlayPlain]
  | (key, v) :: rest, target, ht => by
    rw [overlayPlain]
    split
    · exact tidy_overlayPlain rest ht
    · exact tidy_overlayPlain rest (ht.insert (tidy_overlayValue v fun _ hw => ht.get? hw))

end

theorem tidy_overlay (ht : (Value.mapping target).Tidy) :
    (Value.mapping (target.overlay body)).Tidy :=
  tidy_applyMarkers (tidy_overlayPlain body ht)

end Tidy

end BackupProfiles.Mapping
