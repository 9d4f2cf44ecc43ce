import BackupProfiles.Proofs.Merge.Chain

/-!
# Merging what concerns some names

A body is restricted to some names when only the keys that are one of them, and the markers for one
of them, are left. Each step of a merge writes or removes a single key, and reads no other. So
restricted bodies merge to what the bodies merge to at these names, and to nothing else
(`narrows_mergeLayers`).
-/

namespace BackupProfiles

namespace Mapping

variable {names : List String} {m n target body rest : Mapping} {key v : Value}

/-- Whether a key is one of some names, or a marker for one. -/
def concerns (names : List String) (key : Value) : Bool :=
  match Marker.ofKey? key with
  | some marker => names.contains marker.base
  | none => (names.map Value.string).contains key

def restrict (names : List String) (m : Mapping) : Mapping := m.filter fun e => concerns names e.1

/-- The second mapping is what the first one is at some names. -/
structure Narrows (names : List String) (m n : Mapping) : Prop where
  distinct : m.Distinct
  distinct_narrow : n.Distinct
  get? : ∀ s ∈ names, n.get? (.string s) = m.get? (.string s)
  only : ∀ key ∈ n.keys, ∃ s ∈ names, key = .string s

theorem exists_string_of_concerns (h : concerns names key = true) : ∃ s, key = .string s := by
  by_cases hm : Marker.ofKey? key = none
  · rw [concerns, hm] at h
    obtain ⟨s, -, hs⟩ : ∃ s ∈ names, Value.string s = key := by simpa using h
    exact ⟨s, hs.symm⟩
  · exact Marker.exists_string hm

theorem get?_restrict (m : Mapping) (h : concerns names key = true) :
    (m.restrict names).get? key = m.get? key := by
  obtain ⟨s, rfl⟩ := exists_string_of_concerns h
  rw [restrict, get?_filter fun k hk => by rw [Value.sameKey_string.1 hk], if_pos h]

namespace Narrows

theorem nil : Narrows names [] [] := ⟨.nil, .nil, fun _ _ => rfl, by simp⟩

/-- Writing one of the names on both sides. -/
theorem insert (h : Narrows names m n) {s : String} (hs : s ∈ names) (v : Value) :
    Narrows names (m.insert (.string s) v) (n.insert (.string s) v) where
  distinct := h.distinct.insert _ _
  distinct_narrow := h.distinct_narrow.insert _ _
  get? t ht := by rw [get?_insert, get?_insert, h.get? t ht]
  only key hk := by
    rw [keys_insert] at hk
    split at hk
    · rcases List.mem_append.1 hk with hk | hk
      · exact h.only key hk
      · exact ⟨s, hs, List.mem_singleton.1 hk⟩
    · exact h.only key hk

theorem erase (h : Narrows names m n) (key : Value) :
    Narrows names (m.erase key) (n.erase key) where
  distinct := h.distinct.erase key
  distinct_narrow := h.distinct_narrow.erase key
  get? t ht := by rw [get?_erase h.distinct, get?_erase h.distinct_narrow, h.get? t ht]
  only k hk := by
    obtain ⟨e, he, rfl⟩ := List.mem_map.1 hk
    exact h.only e.1 (mem_keys (mem_erase h.distinct_narrow he))

/-- Writing another key on the wide side. -/
theorem insert_left (h : Narrows names m n) (hk : ∀ s ∈ names, key ≠ .string s) (v : Value) :
    Narrows names (m.insert key v) n where
  distinct := h.distinct.insert key v
  distinct_narrow := h.distinct_narrow
  get? t ht := by rw [get?_insert, if_neg (mt Value.sameKey_string.1 (hk t ht)), h.get? t ht]
  only := h.only

theorem erase_left (h : Narrows names m n) (hk : ∀ s ∈ names, key ≠ .string s) :
    Narrows names (m.erase key) n where
  distinct := h.distinct.erase key
  distinct_narrow := h.distinct_narrow
  get? t ht := by
    rw [get?_erase h.distinct, if_neg (mt Value.sameKey_string.1 (hk t ht)), h.get? t ht]
  only := h.only

theorem overlayPlain (h : Narrows names m n) :
    Narrows names (Mapping.overlayPlain m body) (Mapping.overlayPlain n (body.restrict names)) := by
  induction body generalizing m n with
  | nil =>
    rw [restrict, List.filter_nil, Mapping.overlayPlain, Mapping.overlayPlain]
    exact h
  | cons e rest ih =>
    rw [restrict, List.filter_cons, ← restrict]
    rcases hm : Marker.ofKey? e.1 with _ | marker
    · rw [overlayPlain_cons_plain hm]
      split <;> rename_i hc <;> rw [concerns, hm] at hc
      · obtain ⟨s, hs, hkey⟩ : ∃ s ∈ names, Value.string s = e.1 := by simpa using hc
        rw [overlayPlain_cons_plain hm, ← hkey, h.get? s hs]
        exact ih (h.insert hs _)
      · refine ih (h.insert_left (fun s hs hkey => hc ?_) _)
        rw [hkey]
        simpa using hs
    · rw [overlayPlain_cons_marker (by simp [hm])]
      split
      · rw [overlayPlain_cons_marker (by simp [hm])]
        exact ih h
      · exact ih h

theorem applyMarker (h : Narrows names m n) {marker : Marker} (hb : marker.base ∈ names)
    (v : Value) : Narrows names (m.applyMarker marker v) (n.applyMarker marker v) := by
  rw [applyMarker_eq, applyMarker_eq, h.get? _ hb]
  exact (h.erase _).insert hb _

theorem applyMarker_left (h : Narrows names m n) {marker : Marker} (hb : marker.base ∉ names)
    (v : Value) : Narrows names (m.applyMarker marker v) n := by
  have hk : ∀ s ∈ names, Value.string marker.base ≠ .string s := by
    rintro s hs ⟨⟩
    exact hb hs
  rw [applyMarker_eq]
  exact (h.erase_left hk).insert_left hk _

theorem applyMarkers (h : Narrows names m n) :
    Narrows names (Mapping.applyMarkers m body) (Mapping.applyMarkers n (body.restrict names)) := by
  induction body generalizing m n with
  | nil =>
    rw [restrict, List.filter_nil, Mapping.applyMarkers, Mapping.applyMarkers]
    exact h
  | cons e rest ih =>
    rw [restrict, List.filter_cons, ← restrict]
    rcases hm : Marker.ofKey? e.1 with _ | marker
    · rw [applyMarkers_cons_plain hm]
      split
      · rw [applyMarkers_cons_plain hm]
        exact ih h
      · exact ih h
    · rw [applyMarkers_cons_marker hm]
      split <;> rename_i hc <;> rw [concerns, hm] at hc
      · rw [applyMarkers_cons_marker hm]
        exact ih (h.applyMarker (by simpa using hc) e.2)
      · exact ih (h.applyMarker_left (by simpa using hc) e.2)

theorem overlay (h : Narrows names m n) (body : Mapping) :
    Narrows names (m.overlay body) (n.overlay (body.restrict names)) :=
  h.overlayPlain.applyMarkers

end Narrows

end Mapping

theorem narrows_mergeLayers (names : List String) (layers : List Layer) :
    Mapping.Narrows names (mergeLayers layers)
      (mergeLayers (layers.map fun layer => ⟨layer.name, layer.body.restrict names⟩)) := by
  induction layers with
  | nil => exact .nil
  | cons layer older ih =>
    rw [List.map_cons, mergeLayers_cons, mergeLayers_cons]
    exact (ih.erase descriptionKey).overlay layer.body

end BackupProfiles
