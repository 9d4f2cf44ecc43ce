import BackupProfiles.Proofs.Merge.Chain

/-!
# Plain values

A value is plain when no tag stands in it and every key of its mappings is a text, as far as it is
reached through mappings. What stands in lists does not count, as for tidy values. Bodies that are
merged stay plain (`plain_mergeLayers`).
-/

namespace BackupProfiles

namespace Value

theorem untagged_ne_tagged {tag : String} {content : Value} :
    ∀ v : Value, v.untagged ≠ .tagged tag content
  | .tagged _ v => untagged_ne_tagged v
  | .null | .bool _ | .number _ | .string _ | .list _ | .mapping _ => nofun

inductive Plain : Value → Prop where
  | mapping {m : Mapping} (keys : ∀ e ∈ m, ∃ s, e.1 = .string s) (values : ∀ e ∈ m, Plain e.2) :
    Plain (.mapping m)
  | leaf {v : Value} (h : v.mapping? = none) (untagged : v.untagged = v) : Plain v

namespace Plain

variable {m : Mapping} {key v : Value}

theorem untagged_eq (h : v.Plain) : v.untagged = v := by
  cases h with
  | mapping => rfl
  | leaf _ h => exact h

theorem key_eq (h : (Value.mapping m).Plain) {e : Value × Value} (he : e ∈ m) :
    ∃ s, e.1 = .string s := by
  cases h with
  | mapping keys => exact keys e he
  | leaf h => simp [mapping?] at h

theorem key_of_mem (h : (Value.mapping m).Plain) (hk : key ∈ m.keys) : ∃ s, key = .string s := by
  obtain ⟨e, he, rfl⟩ := List.mem_map.1 hk
  exact h.key_eq he

theorem mem (h : (Value.mapping m).Plain) {e : Value × Value} (he : e ∈ m) : e.2.Plain := by
  cases h with
  | mapping _ values => exact values e he
  | leaf h => simp [mapping?] at h

theorem get? (h : (Value.mapping m).Plain) (hv : m.get? key = some v) : v.Plain := by
  obtain ⟨k, -, hmem⟩ := Mapping.exists_of_get? hv
  exact h.mem hmem

theorem nil : (Value.mapping []).Plain := .mapping (by simp) (by simp)

theorem cons {s : String} (hv : v.Plain) (h : (Value.mapping m).Plain) :
    (Value.mapping ((.string s, v) :: m)).Plain := by
  refine .mapping (fun e he => ?_) fun e he => ?_
  · rcases List.mem_cons.1 he with rfl | he
    · exact ⟨s, rfl⟩
    · exact h.key_eq he
  · rcases List.mem_cons.1 he with rfl | he
    · exact hv
    · exact h.mem he

theorem of_subset {n : Mapping} (h : (Value.mapping m).Plain) (hn : n ⊆ m) :
    (Value.mapping n).Plain :=
  .mapping (fun _ he => h.key_eq (hn he)) fun _ he => h.mem (hn he)

end Plain

end Value

namespace Mapping

open Value

variable {m target body : Mapping}

theorem subset_erase (m : Mapping) (key : Value) : m.erase key ⊆ m := by
  induction m with
  | nil => exact List.Subset.refl _
  | cons e rest ih =>
    rw [erase]
    split
    · split
      · exact List.nil_subset _
      · rename_i final hl
        obtain ⟨front, rfl⟩ := List.getLast?_eq_some_iff.1 hl
        intro a ha
        rw [List.dropLast_concat] at ha
        rcases List.mem_cons.1 ha with rfl | ha
        · simp
        · exact List.mem_cons_of_mem _ (List.mem_append_left _ ha)
    · exact List.cons_subset_cons e ih

theorem plain_insert {v : Value} {s : String} (h : (Value.mapping m).Plain) (hv : v.Plain) :
    (Value.mapping (m.insert (.string s) v)).Plain := by
  induction m with
  | nil => exact hv.cons .nil
  | cons e rest ih =>
    have hrest : (Value.mapping rest).Plain := h.of_subset (List.subset_cons_self e rest)
    obtain ⟨t, ht⟩ := h.key_eq (List.mem_cons_self (a := e) (l := rest))
    rw [insert]
    split
    · rw [ht]
      exact hv.cons hrest
    · have := (h.mem (List.mem_cons_self (a := e) (l := rest))).cons (s := t) (ih hrest)
      rwa [← ht] at this

theorem plain_applyMarkers (ht : (Value.mapping target).Plain) :
    (Value.mapping (applyMarkers target body)).Plain := by
  induction body generalizing target with
  | nil => rwa [applyMarkers]
  | cons e rest ih =>
    rcases hm : Marker.ofKey? e.1 with _ | marker
    · rw [applyMarkers_cons_plain hm]
      exact ih ht
    · rw [applyMarkers_cons_marker hm, applyMarker_eq]
      exact ih (plain_insert (ht.of_subset (subset_erase _ _)) (.leaf rfl rfl))

theorem plain_entries {old? : Option Value} (h : ∀ v ∈ old?, v.Plain) :
    (Value.mapping ((old?.map Value.mappingEntries).getD [])).Plain := by
  rcases old? with _ | v
  · exact Plain.nil
  · cases v with
    | mapping m => exact h _ rfl
    | _ => exact Plain.nil

mutual

theorem plain_overlayValue : ∀ (v : Value) {old? : Option Value},
    v.Plain → (∀ w ∈ old?, w.Plain) → (overlayValue old? v).Plain
  | .mapping body, old?, hv, h => by
    rw [overlayValue]
    exact plain_applyMarkers (plain_overlayPlain body hv (plain_entries h))
  | .null, _, hv, _ | .bool _, _, hv, _ | .number _, _, hv, _ | .string _, _, hv, _
  | .list _, _, hv, _ | .tagged _ _, _, hv, _ => by
    rwa [overlayValue_of_not_mapping _ (by rfl)]

theorem plain_overlayPlain : ∀ (body : List (Value × Value)) {target : Mapping},
    (Value.mapping body).Plain → (Value.mapping target).Plain →
      (Value.mapping (overlayPlain target body)).Plain
  | [], _, _, ht => by rwa [overlayPlain]
  | (key, v) :: rest, target, hb, ht => by
    have hrest : (Value.mapping rest).Plain := hb.of_subset (List.subset_cons_self _ rest)
    obtain ⟨s, hs⟩ := hb.key_eq (List.mem_cons_self (a := (key, v)) (l := rest))
    simp only at hs
    rw [overlayPlain]
    split
    · exact plain_overlayPlain rest hrest ht
    · have hv : (overlayValue (target.get? key) v).Plain :=
        plain_overlayValue v (hb.mem List.mem_cons_self) fun _ hw => ht.get? hw
      rw [hs] at hv ⊢
      exact plain_overlayPlain rest hrest (plain_insert ht hv)

end

theorem plain_overlay (hb : (Value.mapping body).Plain) (ht : (Value.mapping target).Plain) :
    (Value.mapping (target.overlay body)).Plain :=
  plain_applyMarkers (plain_overlayPlain body hb ht)

end Mapping

theorem plain_mergeLayers {layers : List Layer}
    (h : ∀ layer ∈ layers, (Value.mapping layer.body).Plain) :
    (Value.mapping (mergeLayers layers)).Plain := by
  induction layers with
  | nil => exact Value.Plain.nil
  | cons layer older ih =>
    rw [List.forall_mem_cons] at h
    rw [mergeLayers_cons]
    exact Mapping.plain_overlay h.1 ((ih h.2).of_subset (Mapping.subset_erase _ _))

theorem plain_bodyOf {name : String} {v : Value} {body : Mapping} (hv : v.Plain)
    (h : bodyOf name v = .ok body) : (Value.mapping body).Plain := by
  cases v with
  | mapping m =>
    simp only [bodyOf, Except.ok.injEq] at h
    rwa [← h]
  | null =>
    simp only [bodyOf, Except.ok.injEq] at h
    rw [← h]
    exact Value.Plain.nil
  | _ => simp [bodyOf] at h

theorem plain_descend : ∀ {path : List String} {v w : Value},
    v.Plain → Document.descend v path = some w → w.Plain
  | [], v, w, h, hw => by
    simp only [Document.descend, Option.some.injEq] at hw
    rwa [← hw]
  | key :: path, v, w, h, hw => by
    rw [Document.descend, Option.bind_eq_some_iff, h.untagged_eq] at hw
    obtain ⟨u, hu, hw⟩ := hw
    cases v with
    | mapping m => exact plain_descend (h.get? hu) hw
    | _ => simp [Value.member?, Value.mapping?] at hu

theorem Document.plain_mapping? {d : Document} (h : (Value.mapping d.root).Plain)
    (path : List String) : (Value.mapping ((d.mapping? path).getD [])).Plain := by
  rw [mapping?]
  rcases hv : descend (.mapping d.root) path with _ | v
  · exact Value.Plain.nil
  · have hp := plain_descend h hv
    simp only [hp.untagged_eq]
    cases v with
    | mapping m => exact hp
    | _ => exact Value.Plain.nil

namespace Config

variable {c : Config}

theorem plain_profiles (h : (Value.mapping c.document.root).Plain) :
    (Value.mapping c.profiles).Plain :=
  Document.plain_mapping? h _

theorem layers_of_mergedBody {profiles body : Mapping} {name : String}
    (h : mergedBody profiles name = .ok body) :
    ∃ layers, ancestry profiles name = .ok layers ∧ body = mergeLayers layers := by
  rw [mergedBody] at h
  rcases ha : ancestry profiles name with e | layers
  · rw [ha] at h
    cases h
  · rw [ha] at h
    exact ⟨layers, rfl, (Except.ok.inj h).symm⟩

theorem tidy_mergedBody {profiles body : Mapping} {name : String}
    (h : mergedBody profiles name = .ok body) : (Value.mapping body).Tidy := by
  obtain ⟨layers, -, rfl⟩ := layers_of_mergedBody h
  exact tidy_mergeLayers layers

theorem plain_mergedBody (h : (Value.mapping c.document.root).Plain) {name : String}
    {body : Mapping} (hb : mergedBody c.profiles name = .ok body) :
    (Value.mapping body).Plain := by
  obtain ⟨layers, ha, rfl⟩ := layers_of_mergedBody hb
  refine plain_mergeLayers fun layer hl => ?_
  obtain ⟨e, he, hbody⟩ := (layers_of_ancestryFrom ha).2 layer hl
  exact plain_bodyOf ((plain_profiles h).mem he) hbody

end Config

end BackupProfiles
