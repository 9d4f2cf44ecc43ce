import BackupProfiles.Proofs.Association
import BackupProfiles.Proofs.Document.Bodies
import Mathlib.Data.List.Forall2

/-!
# Bodies that agree but for one key

Two bodies have the same keys in the same order, and the same values but for one key. Merging writes
and removes keys without looking at more than their own values, so bodies of this kind merge to
bodies of this kind (`mergeLayers_agreeBut`), as long as the key is a text and no marker.
-/

namespace BackupProfiles

/-- The same keys in the same order, with the same values but for one key. -/
def AgreeBut {κ α : Type} (key : κ) : List (κ × α) → List (κ × α) → Prop :=
  List.Forall₂ fun a b => a.1 = b.1 ∧ (a.1 ≠ key → a.2 = b.2)

namespace AgreeBut

section Entries

variable {κ α : Type} {key : κ} {m n : List (κ × α)}

theorem refl (key : κ) (m : List (κ × α)) : AgreeBut key m m :=
  List.forall₂_same.2 fun _ _ => ⟨rfl, fun _ => rfl⟩

theorem reverse (h : AgreeBut key m n) : AgreeBut key m.reverse n.reverse :=
  List.forall₂_reverse_iff.2 h

theorem entryFor?_eq [DecidableEq κ] {k : κ} (h : AgreeBut key m n) (hk : k ≠ key) :
    entryFor? m k = entryFor? n k := by
  induction h with
  | nil => rfl
  | @cons a b rest rest' hab _ ih =>
    rw [entryFor?_cons, entryFor?_cons, ← hab.1, ih]
    split
    · rename_i ha
      rw [hab.2 (ha ▸ hk)]
    · rfl

/-- Where the key counts for nothing, nothing else tells the entries apart. -/
theorem filterMap_eq {β : Type} {f : κ × α → Option β} (hf : ∀ a, f (key, a) = none)
    (h : AgreeBut key m n) : m.filterMap f = n.filterMap f := by
  induction h with
  | nil => rfl
  | @cons a b rest rest' hab _ ih =>
    obtain ⟨k, v⟩ := a
    obtain ⟨k', w⟩ := b
    obtain ⟨rfl, hv⟩ : k = k' ∧ (k ≠ key → v = w) := hab
    rw [List.filterMap_cons, List.filterMap_cons, ih]
    by_cases hk : k = key
    · rw [hk, hf, hf]
    · rw [hv hk]

theorem filter_eq {keep : κ × α → Bool} (hkeep : ∀ a, keep (key, a) = false)
    (h : AgreeBut key m n) : m.filter keep = n.filter keep := by
  rw [← List.filterMap_eq_filter]
  exact h.filterMap_eq fun a => by simp [Option.guard, hkeep a]

/-- Writing a key, with the same value unless it is the one. -/
theorem writeEntry [DecidableEq κ] {k : κ} {v w : α} (h : AgreeBut key m n)
    (hv : k ≠ key → v = w) : AgreeBut key (writeEntry k v m) (writeEntry k w n) := by
  induction h with
  | nil => exact .cons ⟨rfl, hv⟩ .nil
  | @cons a b rest rest' hab hrest ih =>
    rw [BackupProfiles.writeEntry, BackupProfiles.writeEntry, ← hab.1]
    split
    · rename_i ha
      exact .cons ⟨rfl, fun hne => hv (ha ▸ hne)⟩ hrest
    · exact .cons hab ih

theorem keys_eq (h : AgreeBut key m n) : m.map (·.1) = n.map (·.1) := by
  induction h with
  | nil => rfl
  | cons hab _ ih => rw [List.map_cons, List.map_cons, hab.1, ih]

/-- Where no key stands twice, the value of the one key is all that is open. -/
theorem eq_of_entryFor? [DecidableEq κ] (h : AgreeBut key m n) (hm : (m.map (·.1)).Nodup)
    (hkey : entryFor? m key = entryFor? n key) : m = n := by
  induction h with
  | nil => rfl
  | @cons a b rest rest' hab hrest ih =>
    obtain ⟨k, v⟩ := a
    obtain ⟨k', w⟩ := b
    obtain ⟨rfl, hv⟩ : k = k' ∧ (k ≠ key → v = w) := hab
    rw [List.map_cons, List.nodup_cons, ← entryFor?_eq_none_iff] at hm
    rw [entryFor?_cons, entryFor?_cons] at hkey
    by_cases hk : k = key
    · have hnone : entryFor? rest' key = none := by
        rw [entryFor?_eq_none_iff, ← keys_eq hrest, ← hk]
        exact entryFor?_eq_none_iff.1 hm.1
      rw [if_pos hk, if_pos hk, Option.some.injEq] at hkey
      obtain rfl : v = w := hkey
      rw [ih hm.2 (by rw [hnone, ← hk, hm.1])]
    · rw [if_neg hk, if_neg hk] at hkey
      rw [hv hk, ih hm.2 hkey]

end Entries

variable {s t m n body other : Mapping} {g : String} {k v w : Value}

theorem get?_eq (h : AgreeBut (.string g) m n) (hk : k ≠ .string g) : m.get? k = n.get? k := by
  induction h with
  | nil => rfl
  | @cons a b rest rest' hab _ ih =>
    rw [Mapping.get?_cons, Mapping.get?_cons, ← hab.1, ih]
    split
    · rename_i ha
      have hne : a.1 ≠ .string g := fun he => hk (Value.string_sameKey.1 (he ▸ ha))
      rw [hab.2 hne]
    · rfl

theorem insert (h : AgreeBut (.string g) m n) (hv : k ≠ .string g → v = w) :
    AgreeBut (.string g) (m.insert k v) (n.insert k w) := by
  induction h with
  | nil => exact .cons ⟨rfl, hv⟩ .nil
  | @cons a b rest rest' hab hrest ih =>
    rw [Mapping.insert, Mapping.insert, ← hab.1]
    split
    · rename_i ha
      refine .cons ⟨rfl, fun hne => hv fun hk => hne ?_⟩ hrest
      exact Value.sameKey_string.1 (hk ▸ ha)
    · exact .cons hab ih

theorem erase (h : AgreeBut (.string g) m n) (k : Value) :
    AgreeBut (.string g) (m.erase k) (n.erase k) := by
  induction h with
  | nil => exact .nil
  | @cons a b rest rest' hab hrest ih =>
    rw [Mapping.erase, Mapping.erase, ← hab.1]
    split
    · -- the last entries move into the place of the key
      have hreverse := List.forall₂_reverse_iff.2 hrest
      rcases hr : rest.reverse with _ | ⟨final, front⟩ <;>
        rcases hr' : rest'.reverse with _ | ⟨final', front'⟩ <;> rw [hr, hr'] at hreverse
      · rw [List.reverse_eq_nil_iff.1 hr, List.reverse_eq_nil_iff.1 hr']
        exact .nil
      · cases hreverse
      · cases hreverse
      · rw [List.reverse_eq_cons_iff.1 hr, List.reverse_eq_cons_iff.1 hr']
        simp only [List.getLast?_concat, List.dropLast_concat]
        obtain ⟨hfinal, hfront⟩ := List.forall₂_cons.1 hreverse
        exact .cons hfinal (List.forall₂_reverse_iff.2 hfront)
    · exact .cons hab ih

theorem overlayPlain (h : AgreeBut (.string g) s t) (hb : AgreeBut (.string g) body other) :
    AgreeBut (.string g) (Mapping.overlayPlain s body) (Mapping.overlayPlain t other) := by
  induction hb generalizing s t with
  | nil =>
    rw [Mapping.overlayPlain, Mapping.overlayPlain]
    exact h
  | @cons a b rest rest' hab _ ih =>
    by_cases hm : Marker.ofKey? a.1 = none
    · rw [Mapping.overlayPlain_cons_plain hm, Mapping.overlayPlain_cons_plain (hab.1 ▸ hm),
        ← hab.1]
      exact ih (h.insert fun hne => by rw [h.get?_eq hne, hab.2 hne])
    · rw [Mapping.overlayPlain_cons_marker hm, Mapping.overlayPlain_cons_marker (hab.1 ▸ hm)]
      exact ih h

theorem applyMarker (h : AgreeBut (.string g) s t) (marker : Marker) (v : Value) :
    AgreeBut (.string g) (s.applyMarker marker v) (t.applyMarker marker v) := by
  rw [Mapping.applyMarker_eq, Mapping.applyMarker_eq]
  exact (h.erase _).insert fun hne => by rw [h.get?_eq hne]

theorem applyMarkers (hg : Marker.ofKey? (.string g) = none) (h : AgreeBut (.string g) s t)
    (hb : AgreeBut (.string g) body other) :
    AgreeBut (.string g) (Mapping.applyMarkers s body) (Mapping.applyMarkers t other) := by
  induction hb generalizing s t with
  | nil =>
    rw [Mapping.applyMarkers, Mapping.applyMarkers]
    exact h
  | @cons a b rest rest' hab _ ih =>
    rcases hm : Marker.ofKey? a.1 with _ | marker
    · rw [Mapping.applyMarkers_cons_plain hm, Mapping.applyMarkers_cons_plain (hab.1 ▸ hm)]
      exact ih h
    · have hne : a.1 ≠ .string g := by
        intro he
        rw [he, hg] at hm
        cases hm
      rw [Mapping.applyMarkers_cons_marker hm, Mapping.applyMarkers_cons_marker (hab.1 ▸ hm),
        ← hab.2 hne]
      exact ih (h.applyMarker marker a.2)

theorem overlay (hg : Marker.ofKey? (.string g) = none) (h : AgreeBut (.string g) s t)
    (hb : AgreeBut (.string g) body other) :
    AgreeBut (.string g) (s.overlay body) (t.overlay other) :=
  (h.overlayPlain hb).applyMarkers hg hb

end AgreeBut

theorem mergeLayers_agreeBut {g : String} {layers others : List Layer}
    (hg : Marker.ofKey? (.string g) = none)
    (h : List.Forall₂ (fun a b => AgreeBut (.string g) a.body b.body) layers others) :
    AgreeBut (.string g) (mergeLayers layers) (mergeLayers others) := by
  induction h with
  | nil => exact .refl _ _
  | @cons a b older others hab _ ih =>
    rw [mergeLayers_cons, mergeLayers_cons]
    exact (ih.erase descriptionKey).overlay hg hab

end BackupProfiles
