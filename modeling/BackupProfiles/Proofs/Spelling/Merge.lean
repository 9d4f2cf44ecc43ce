import BackupProfiles.Proofs.Document.Bodies
import BackupProfiles.Proofs.Mapping.Values
import BackupProfiles.Proofs.Merge.Overlay

/-!
# Spellings that merging does not see

A value can be written in more than one way and mean the same. A `Spelling` picks one of them, for
values as they are written and for values as they are merged, so that merging comes after it or
before it (`overlay_spelled`). Fields have spellings of their own; the spelling of a section is put
together from those of its fields (`Spelling.nested`), and a whole chain of bodies can be spelled
first or merged first (`mergeLayers_spelled`).
-/

namespace BackupProfiles

structure Spelling where
  /-- A merged value. -/
  merged : Value → Value
  /-- A value as it stands in a body, before merging. -/
  written : Value → Value
  /-- A value among the items that markers add. -/
  item : Value → Value
  items_merged : ∀ v, (merged v).items = v.items.map item
  merged_list : ∀ items, merged (.list items) = .list (items.map item)
  overlayValue_written : ∀ old? v, Mapping.overlayValue (old?.map merged) (written v) =
    merged (Mapping.overlayValue old? v)

/-- The only spelling there is. -/
def Spelling.plain : Spelling where
  merged v := v
  written v := v
  item v := v
  items_merged v := v.items.map_id'.symm
  merged_list items := by rw [List.map_id']
  overlayValue_written old? v := by rw [Option.map_id']

/-- The spelling of what stands at a key: a text, tags or not, has one of its own. -/
def Spelling.at (spelling : String → Spelling) (key : Value) : Spelling :=
  match key.untagged with
  | .string s => spelling s
  | _ => .plain

namespace Spelling

variable (spelling : String → Spelling) {j k : Value}

@[simp]
theorem at_string (s : String) : Spelling.at spelling (.string s) = spelling s := rfl

theorem at_of_untagged {key : Value} {s : String} (h : key.untagged = .string s) :
    Spelling.at spelling key = spelling s := by
  rw [Spelling.at, h]

theorem at_congr (h : j.sameKey k = true) : Spelling.at spelling j = Spelling.at spelling k := by
  have hsame := Value.sameKey_untagged h
  unfold Spelling.at
  split
  · rename_i s hj
    rw [hj, Value.string_sameKey] at hsame
    rw [hsame]
  · rename_i hj
    split
    · rename_i s hk
      rw [hk, Value.sameKey_string] at hsame
      exact absurd hsame (hj s)
    · rfl

end Spelling

namespace Mapping

variable (spelling : String → Spelling) {target body : Mapping}

/-- A merged mapping with its values spelled. -/
def spelled (m : Mapping) : Mapping := m.mapValues fun key => (Spelling.at spelling key).merged

/-- How a value of a body is spelled; the value of a marker adds to that of its base. -/
def writtenValue (key v : Value) : Value :=
  match Marker.ofKey? key with
  | some marker => (spelling marker.base).merged v
  | none => (Spelling.at spelling key).written v

/-- A body with its values spelled. -/
def written (m : Mapping) : Mapping := m.mapValues (writtenValue spelling)

theorem written_cons (e : Value × Value) (rest : Mapping) :
    written spelling (e :: rest) = (e.1, writtenValue spelling e.1 e.2) :: written spelling rest :=
  rfl

theorem respectsKeys_merged : RespectsKeys fun key => (Spelling.at spelling key).merged :=
  fun j k h => by simp only [Spelling.at_congr spelling h]

theorem goesByTexts_merged : GoesByTexts (fun key => (Spelling.at spelling key).merged)
    fun name => (spelling name).merged :=
  fun key s h => by simp only [Spelling.at_of_untagged spelling h]

theorem get?_spelled (m : Mapping) (key : Value) :
    (spelled spelling m).get? key = (m.get? key).map (Spelling.at spelling key).merged :=
  get?_mapValues (respectsKeys_merged spelling) m key

theorem spelled_insert (m : Mapping) (key v : Value) : spelled spelling (m.insert key v) =
    (spelled spelling m).insert key ((Spelling.at spelling key).merged v) :=
  mapValues_insert (respectsKeys_merged spelling) m key v

theorem spelled_erase (m : Mapping) (key : Value) :
    spelled spelling (m.erase key) = (spelled spelling m).erase key :=
  mapValues_erase (fun key => (Spelling.at spelling key).merged) m key

theorem itemsOf_map (s : Spelling) (v? : Option Value) :
    itemsOf (v?.map s.merged) = (itemsOf v?).map s.item := by
  rcases v? with _ | v
  · rfl
  · exact s.items_merged v

theorem map_extended (f : Value → Value) (side : ListEnd) (held extra : List Value) :
    (extended side held extra).map f = extended side (held.map f) (extra.map f) := by
  cases side <;> exact List.map_append

theorem applyMarker_spelled (target : Mapping) (marker : Marker) (v : Value) :
    (spelled spelling target).applyMarker marker ((spelling marker.base).merged v) =
      spelled spelling (target.applyMarker marker v) := by
  rw [applyMarker_eq, applyMarker_eq, get?_spelled, spelled_insert, spelled_erase,
    Spelling.at_string, itemsOf_map, Spelling.items_merged, ← map_extended, Spelling.merged_list]

theorem applyMarkers_spelled (target body : Mapping) :
    applyMarkers (spelled spelling target) (written spelling body) =
      spelled spelling (applyMarkers target body) := by
  induction body generalizing target with
  | nil => rw [applyMarkers]; rfl
  | cons e rest ih =>
    rw [written_cons]
    rcases hm : Marker.ofKey? e.1 with _ | marker
    · rw [applyMarkers_cons_plain hm, ← ih]
      exact applyMarkers_cons_plain hm
    · rw [applyMarkers_cons_marker hm, ← ih, ← applyMarker_spelled]
      have hv : writtenValue spelling e.1 e.2 = (spelling marker.base).merged e.2 := by
        rw [writtenValue, hm]
      rw [hv]
      exact applyMarkers_cons_marker hm

theorem overlayPlain_spelled (target body : Mapping) :
    overlayPlain (spelled spelling target) (written spelling body) =
      spelled spelling (overlayPlain target body) := by
  induction body generalizing target with
  | nil => rw [overlayPlain]; rfl
  | cons e rest ih =>
    rw [written_cons]
    by_cases hm : Marker.ofKey? e.1 = none
    · have hv : writtenValue spelling e.1 e.2 = (Spelling.at spelling e.1).written e.2 := by
        rw [writtenValue, hm]
      rw [overlayPlain_cons_plain hm, ← ih, spelled_insert, ← Spelling.overlayValue_written,
        ← get?_spelled, hv]
      exact overlayPlain_cons_plain hm
    · rw [overlayPlain_cons_marker hm, ← ih]
      exact overlayPlain_cons_marker hm

/-- Bodies can be spelled before they are merged, or after. -/
theorem overlay_spelled (target body : Mapping) :
    (spelled spelling target).overlay (written spelling body) =
      spelled spelling (target.overlay body) := by
  rw [overlay, overlay, overlayPlain_spelled, applyMarkers_spelled]

end Mapping

namespace Value

variable (spelling : String → Spelling)

/-- A merged section with its fields spelled, or a list of sections. -/
def spelledSection : Value → Value
  | list items => list (items.map (reviseMapping (Mapping.spelled spelling)))
  | v => v.reviseMapping (Mapping.spelled spelling)

/-- A section of a body with its fields spelled. Nothing behind a tag is merged, so no key there is
a marker. -/
def writtenSection : Value → Value
  | mapping m => mapping (Mapping.written spelling m)
  | v => v.spelledSection spelling

end Value

namespace Spelling

/-- The entries of a rewritten value are those of the value, rewritten. -/
theorem entries_map {f : Value → Value} {g : Mapping → Mapping} (hg : g [] = [])
    (h : ∀ v, (f v).mappingEntries = g v.mappingEntries) (old? : Option Value) :
    ((old?.map f).map Value.mappingEntries).getD [] =
      g ((old?.map Value.mappingEntries).getD []) := by
  rcases old? with _ | v
  · exact hg.symm
  · exact h v

/-- The spelling of a section from those of its fields. -/
def nested (spelling : String → Spelling) : Spelling where
  merged := Value.spelledSection spelling
  written := Value.writtenSection spelling
  item := Value.reviseMapping (Mapping.spelled spelling)
  items_merged v := by cases v <;> rfl
  merged_list _ := rfl
  overlayValue_written old? v := by
    cases v with
    | mapping body =>
      have hentries : ∀ v : Value, (v.spelledSection spelling).mappingEntries =
          Mapping.spelled spelling v.mappingEntries := fun v => by cases v <;> rfl
      rw [Value.writtenSection, Mapping.overlayValue_mapping, entries_map rfl hentries,
        Mapping.overlay_spelled, Mapping.overlayValue_mapping]
      rfl
    | _ => simp [Mapping.overlayValue, Value.writtenSection, Value.spelledSection,
        Value.reviseMapping]

end Spelling

section Layers

variable (spelling : String → Spelling)

/-- A layer with its body spelled. -/
def Layer.written (layer : Layer) : Layer :=
  ⟨layer.name, Mapping.written spelling layer.body⟩

/-- The bodies of a chain can be spelled before they are laid over each other, or after. -/
theorem mergeLayers_spelled (layers : List Layer) :
    mergeLayers (layers.map (Layer.written spelling)) =
      Mapping.spelled spelling (mergeLayers layers) := by
  induction layers with
  | nil => rfl
  | cons layer older ih =>
    rw [List.map_cons, mergeLayers_cons, mergeLayers_cons, ← Mapping.overlay_spelled,
      Mapping.spelled_erase, ih]
    rfl

end Layers

end BackupProfiles
