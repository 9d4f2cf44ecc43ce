import BackupProfiles.Proofs.Merge.Accumulation

/-!
# Markers do not outlive a merge

Markers act on their bases and are not kept. A marker among the keys of what a chain merges to is
therefore the base of a marker in some layer, which can only be a key with dots enough for two
(`marked_of_mem_mergeLayers`). Laying a body over a mapping brings in no marker but the bases
of the markers of the body, at every path (`Mapping.mem_keys_within_overlay`).

Without such keys a merged chain is markerless. Laid over nothing, a markerless mapping comes out as
it is, in its order (`Mapping.overlay_empty`), so it is the normal form of the chain.
-/

namespace BackupProfiles

namespace Mapping

variable {target body m : Mapping} {key : Value}

/-- Some key is a marker whose base is a marker itself. -/
def DoublyMarked (m : Mapping) : Prop :=
  ∃ e ∈ m, (Marker.ofKey? e.1).bind (fun marker => Marker.ofText? marker.base) ≠ none

instance (m : Mapping) : Decidable m.DoublyMarked :=
  inferInstanceAs (Decidable (∃ e ∈ m, _ ≠ none))

/-- No mapping that is reached through mappings has a doubly marked key. -/
def SinglyMarked (m : Mapping) : Prop := ∀ path, ¬ (m.within path).DoublyMarked

/-- No mapping that is reached through mappings has a marker for a key. -/
def Markerless (m : Mapping) : Prop := ∀ path, (m.within path).Unmarked

theorem doublyMarked_of_names (hk : Marker.ofKey? key ≠ none) (h : m.Names key) :
    m.DoublyMarked := by
  obtain ⟨e, he, hbase⟩ := h
  obtain ⟨marker, hm, rfl⟩ := Option.map_eq_some_iff.1 hbase
  exact ⟨e, he, by rwa [hm]⟩

/-- The base of markers ends up as a list. -/
theorem exists_list_of_names (ht : target.Distinct) (h : body.Names key) :
    ∃ items, (applyMarkers target body).get? key = some (.list items) := by
  induction body generalizing target with
  | nil =>
    obtain ⟨e, he, -⟩ := h
    cases he
  | cons e rest ih =>
    by_cases hrest : Names rest key
    · rcases hm : Marker.ofKey? e.1 with _ | marker
      · rw [applyMarkers_cons_plain hm]
        exact ih ht hrest
      · rw [applyMarkers_cons_marker hm]
        exact ih (ht.applyMarker _ _) hrest
    · obtain ⟨a, ha, hbase⟩ := h
      obtain rfl : a = e := (List.mem_cons.1 ha).resolve_right fun hr => hrest ⟨a, hr, hbase⟩
      obtain ⟨marker, hm, hkey⟩ := Option.map_eq_some_iff.1 hbase
      rw [applyMarkers_cons_marker hm, get?_applyMarkers_of_not_names (ht.applyMarker _ _) hrest,
        get?_applyMarker ht, if_pos hkey.symm]
      exact ⟨_, rfl⟩

theorem within_singleton {v : Value} (h : target.get? key = some v) :
    target.within [key] = v.mappingEntries := by
  rw [within, within, entriesAt, h]
  rfl

theorem within_of_not_mapping {v : Value} (h : target.get? key = some v) (hv : v.mapping? = none)
    (path : List Value) : target.within (key :: path) = [] := by
  have hentries : target.entriesAt key = [] := by
    rw [entriesAt, h]
    cases v with
    | mapping m => cases hv
    | _ => rfl
  rw [within, hentries, within_nil]

/-- Laying a body over a mapping brings in no markers but the bases of its own. -/
theorem mem_keys_within_overlay {path : List Value} (ht : (Value.mapping target).Tidy)
    (hb : (Value.mapping body).Tidy) (hk : Marker.ofKey? key ≠ none)
    (h : key ∈ ((target.overlay body).within path).keys) :
    key ∈ (target.within path).keys ∨ (body.within path).Names key := by
  obtain ⟨s, rfl⟩ := Marker.exists_string hk
  induction path generalizing target body with
  | nil =>
    by_cases hn : body.Names (.string s)
    · exact Or.inr hn
    · rw [within, mem_keys_iff, overlay,
        get?_applyMarkers_of_not_names ht.distinct.overlayPlain hn,
        get?_overlayPlain_marker hk, ← mem_keys_iff] at h
      exact Or.inl h
  | cons next path ih =>
    have hsame : (target.overlay body).get? next = target.get? next →
        .string s ∈ (target.within (next :: path)).keys := fun hget => by
      rwa [within, entriesAt_congr hget] at h
    by_cases hn : body.Names next
    · -- a list stands there, and no path goes on below it
      obtain ⟨items, hlist⟩ : ∃ items, (target.overlay body).get? next = some (.list items) :=
        exists_list_of_names ht.distinct.overlayPlain hn
      rw [within_of_not_mapping hlist rfl] at h
      cases h
    by_cases hm : Marker.ofKey? next = none
    · have hget := get?_overlay ht.distinct hb.distinct hm hn
      rcases hv : body.get? next with _ | v
      · rw [hv] at hget
        exact Or.inl (hsame hget)
      rw [hv, overlayValue?] at hget
      rcases Value.mapping_or_not v with ⟨inner, rfl⟩ | hleaf
      · rw [overlayValue_mapping] at hget
        rw [within, entriesAt_of_mapping hget] at h
        rw [within, within, entriesAt_of_mapping hv]
        exact ih (tidy_entriesAt ht next) (hb.get? hv) h
      · rw [overlayValue_of_not_mapping _ hleaf] at hget
        rw [within_of_not_mapping hget hleaf] at h
        cases h
    · refine Or.inl (hsame ?_)
      rw [overlay, get?_applyMarkers_of_not_names ht.distinct.overlayPlain hn,
        get?_overlayPlain_marker hm]

end Mapping

/-- A layer has a marker for a key of the mapping at a path. -/
def Marked (layers : List Layer) (path : List Value) (key : Value) : Prop :=
  ∃ layer ∈ layers, (layer.body.within path).Names key

instance (layers : List Layer) (path : List Value) (key : Value) :
    Decidable (Marked layers path key) :=
  inferInstanceAs (Decidable (∃ layer ∈ layers, (layer.body.within path).Names key))

variable {layers : List Layer} {path : List Value} {key : Value}

/-- A marker that is a key of a merged chain is the base of a marker in some layer. -/
theorem marked_of_mem_mergeLayers (ht : ∀ layer ∈ layers, (Value.mapping layer.body).Tidy)
    (hk : Marker.ofKey? key ≠ none) (h : key ∈ ((mergeLayers layers).within path).keys) :
    Marked layers path key := by
  induction layers with
  | nil =>
    rw [mergeLayers_nil, Mapping.within_nil] at h
    cases h
  | cons layer older ih =>
    rw [List.forall_mem_cons] at ht
    rw [mergeLayers_cons] at h
    have htidy := tidy_mergeLayers older
    rcases Mapping.mem_keys_within_overlay (htidy.erase descriptionKey) ht.1 hk h with h | h
    · obtain ⟨base, rfl⟩ := Marker.exists_string hk
      rw [Mapping.mem_keys_iff, get?_within_erase htidy] at h
      split at h
      · exact absurd rfl h
      · obtain ⟨found, hfound, hnames⟩ := ih ht.2 (Mapping.mem_keys_iff.2 h)
        exact ⟨found, List.mem_cons_of_mem _ hfound, hnames⟩
    · exact ⟨layer, List.mem_cons_self, h⟩

/-- Without doubly marked keys in its layers, a merged chain has no markers. -/
theorem markerless_mergeLayers (ht : ∀ layer ∈ layers, (Value.mapping layer.body).Tidy)
    (hs : ∀ layer ∈ layers, layer.body.SinglyMarked) : (mergeLayers layers).Markerless := by
  intro path e he
  by_contra hk
  obtain ⟨layer, hl, hnames⟩ := marked_of_mem_mergeLayers ht hk (Mapping.mem_keys he)
  exact hs layer hl path (Mapping.doublyMarked_of_names hk hnames)

namespace Mapping

variable {target rest m : Mapping} {v : Value}

theorem SinglyMarked.nil : SinglyMarked [] := by
  intro path
  rw [within_nil]
  rintro ⟨e, he, -⟩
  cases he

theorem SinglyMarked.of_entries (h : ¬ m.DoublyMarked)
    (hv : ∀ e ∈ m, e.2.mappingEntries.SinglyMarked) : m.SinglyMarked := by
  rintro (_ | ⟨key, path⟩)
  · exact h
  · rw [within, entriesAt]
    rcases hget : m.get? key with _ | v
    · exact SinglyMarked.nil path
    · obtain ⟨k, -, hmem⟩ := exists_of_get? hget
      exact hv _ hmem path

theorem Markerless.nil : Markerless [] := by
  intro path e he
  rw [within_nil] at he
  cases he

theorem Markerless.entriesAt (h : m.Markerless) (key : Value) : (m.entriesAt key).Markerless :=
  fun path => h (key :: path)

theorem Markerless.without (h : m.Markerless) (key : Value) : (m.without key).Markerless := by
  rintro (_ | ⟨next, path⟩)
  · exact fun e he => h [] e (List.mem_filter.1 he).1
  · have hget := get?_without m key next
    rw [within]
    split at hget
    · rw [entriesAt_of_none hget]
      exact Markerless.nil path
    · rw [entriesAt_congr hget]
      exact h (next :: path)

/-- Keys that are new and no markers are added behind the others. -/
theorem overlayPlain_eq_append (hu : rest.Unmarked) (hn : Distinct (target ++ rest))
    (hv : ∀ e ∈ rest, overlayValue none e.2 = e.2) : overlayPlain target rest = target ++ rest := by
  -- each step moves the first of the new keys to the end of the target
  induction rest generalizing target with
  | nil => rw [overlayPlain, List.append_nil]
  | cons e rest ih =>
    have hassoc : target ++ e :: rest = target ++ [e] ++ rest := by simp
    have hnew : target.get? e.1 = none := by
      rw [Distinct, keys, List.map_append, List.pairwise_append] at hn
      exact get?_eq_none_iff.2 fun k hk => hn.2.2 k hk _ List.mem_cons_self
    rw [overlayPlain_cons_plain (hu e List.mem_cons_self), hnew, hv e List.mem_cons_self,
      insert_of_none hnew, hassoc]
    rw [hassoc] at hn
    exact ih (fun a ha => hu a (List.mem_cons_of_mem _ ha)) hn
      fun a ha => hv a (List.mem_cons_of_mem _ ha)

/-- Laid over nothing, a value without markers stays as it is. -/
theorem overlayValue_none (ht : v.Tidy) (hm : v.mappingEntries.Markerless) :
    overlayValue none v = v := by
  induction ht with
  | leaf h => exact overlayValue_of_not_mapping none h
  | @mapping m keys values ih =>
    have hm : m.Markerless := hm
    have hunmarked : m.Unmarked := hm []
    have hvalues : ∀ e ∈ m, overlayValue none e.2 = e.2 := by
      intro e he
      refine ih e he ?_
      have hentries := hm.entriesAt e.1
      rwa [entriesAt, get?_of_mem keys he] at hentries
    have hempty : overlay [] m = m := by
      rw [overlay, applyMarkers_of_unmarked hunmarked]
      exact overlayPlain_eq_append hunmarked keys hvalues
    rw [overlayValue_mapping]
    exact congrArg Value.mapping hempty

theorem overlay_empty (ht : (Value.mapping m).Tidy) (hm : m.Markerless) : overlay [] m = m := by
  have hv := overlayValue_none ht hm
  rw [overlayValue_mapping] at hv
  exact Value.mapping.inj hv

end Mapping

/-- A single layer without markers merges to its body. -/
theorem mergeLayers_singleton {layer : Layer} (ht : (Value.mapping layer.body).Tidy)
    (hm : layer.body.Markerless) : mergeLayers [layer] = layer.body := by
  rw [mergeLayers_cons, mergeLayers_nil]
  exact Mapping.overlay_empty ht hm

end BackupProfiles
