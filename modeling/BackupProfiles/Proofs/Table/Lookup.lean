import BackupProfiles.Proofs.Flags.Settings

/-!
# Looking up in a table

A table made from a list of entries has the last entry of each key (`get?_ofList`), so without
double keys it has them all.
-/

namespace BackupProfiles.Table

variable {α β : Type} {key : String} {a : α}

theorem ext_entries {s t : Table α} (h : s.entries = t.entries) : s = t := by
  cases s
  cases t
  cases h
  rfl

@[simp]
theorem get?_empty (key : String) : (empty : Table α).get? key = none := rfl

theorem entryFor?_insertSorted (key : String) (a : α) (entries : List (String × α))
    (other : String) : entryFor? (insertSorted key a entries) other =
      if key = other then some a else entryFor? entries other := by
  induction entries with
  | nil => rw [insertSorted, entryFor?_cons]
  | cons e rest ih =>
    rw [insertSorted]
    split
    · rw [entryFor?_cons]
    · split
      · rename_i he
        rw [entryFor?_cons, entryFor?_cons, ← he]
        split <;> rfl
      · rename_i he
        rw [entryFor?_cons, entryFor?_cons, ih]
        by_cases hk : key = other
        · rw [if_neg fun h => he (hk.trans h.symm), if_pos hk, if_pos hk]
        · rw [if_neg hk, if_neg hk]

theorem get?_insert (t : Table α) (key : String) (a : α) (other : String) :
    (t.insert key a).get? other = if key = other then some a else t.get? other :=
  entryFor?_insertSorted key a t.entries other

/-- Of several entries with a key the last counts. -/
theorem get?_foldl_insert (entries : List (String × α)) (t : Table α) (key : String) :
    (entries.foldl (fun t e => t.insert e.1 e.2) t).get? key =
      (entryFor? entries.reverse key).or (t.get? key) := by
  rw [List.foldl_eq_foldr_reverse]
  induction entries.reverse with
  | nil => rfl
  | cons e rest ih =>
    rw [List.foldr_cons, get?_insert, ih, entryFor?_cons]
    split <;> rfl

theorem get?_foldl_insert_of_mem {entries : List (String × α)}
    (hs : ∀ e ∈ entries, e.1 = key → e.2 = a) (h : (key, a) ∈ entries) (t : Table α) :
    (entries.foldl (fun t e => t.insert e.1 e.2) t).get? key = some a := by
  rw [get?_foldl_insert]
  rcases hv : entryFor? entries.reverse key with _ | other
  · rw [entryFor?_eq_none_iff, List.map_reverse, List.mem_reverse] at hv
    exact absurd (List.mem_map_of_mem h) hv
  · obtain rfl : other = a := hs _ (List.mem_reverse.1 (mem_of_entryFor? hv)) rfl
    rfl

theorem get?_ofList (entries : List (String × α)) (key : String) :
    (ofList entries).get? key = entryFor? entries.reverse key := by
  rw [ofList, get?_foldl_insert, get?_empty, Option.or_none]

theorem get?_ofList_of_nodup {entries : List (String × α)} (hn : (entries.map (·.1)).Nodup)
    (key : String) : (ofList entries).get? key = entryFor? entries key := by
  rw [get?_ofList]
  exact (entryFor?_perm hn entries.reverse_perm.symm).symm

/-- A table made from its keys. -/
theorem get?_ofList_map (names : List String) (f : String → α) (key : String) :
    (ofList (names.map fun n => (n, f n))).get? key =
      if key ∈ names then some (f key) else none := by
  have hmem : key ∈ names ↔ key ∈ names.reverse := List.mem_reverse.symm
  rw [get?_ofList, ← List.map_reverse]
  simp only [hmem]
  induction names.reverse with
  | nil => simp [entryFor?_nil]
  | cons n rest ih =>
    rw [List.map_cons, entryFor?_cons, ih]
    by_cases h : n = key
    · simp [h]
    · simp [h, Ne.symm h]

theorem get?_mapEntries (f : String → α → β) (t : Table α) (key : String) :
    (t.mapEntries f).get? key = (t.get? key).map (f key) :=
  entryFor?_map f t.entries key

theorem get?_map (f : α → β) (t : Table α) (key : String) :
    (t.map f).get? key = (t.get? key).map f :=
  get?_mapEntries _ t key

theorem map_insert (f : α → β) (t : Table α) (key : String) (a : α) :
    (t.insert key a).map f = (t.map f).insert key (f a) := by
  refine ext_entries ?_
  have hsorted : ∀ entries : List (String × α),
      (insertSorted key a entries).map (fun e => (e.1, f e.2)) =
        insertSorted key (f a) (entries.map fun e => (e.1, f e.2)) := by
    intro entries
    induction entries with
    | nil => rfl
    | cons e rest ih =>
      rw [insertSorted, List.map_cons, insertSorted]
      split
      · rfl
      · split
        · rfl
        · rw [List.map_cons, ih]
  exact hsorted t.entries

theorem map_ofList (f : α → β) (entries : List (String × α)) :
    (ofList entries).map f = ofList (entries.map fun e => (e.1, f e.2)) := by
  have hfold : ∀ t : Table α, (entries.foldl (fun t e => t.insert e.1 e.2) t).map f =
      (entries.map fun e => (e.1, f e.2)).foldl (fun t e => t.insert e.1 e.2) (t.map f) := by
    induction entries with
    | nil => exact fun t => rfl
    | cons e rest ih =>
      intro t
      rw [List.foldl_cons, ih, map_insert]
      rfl
  exact hfold empty

theorem get?_of_mem {t : Table α} {e : String × α} (h : e ∈ t.entries) : t.get? e.1 = some e.2 :=
  entryFor?_of_mem t.nodup_keys h

/-- Texts in ascending order are settled by which ones there are. -/
theorem ascending_ext {texts others : List String} (ht : texts.Pairwise (· < ·))
    (ho : others.Pairwise (· < ·)) (h : ∀ s, s ∈ texts ↔ s ∈ others) : texts = others := by
  have hne : ∀ {a b : String}, a < b → a ≠ b := fun hlt heq =>
    absurd (heq ▸ hlt) (String.lt_irrefl _)
  have hperm : texts.Perm others :=
    (List.perm_ext_iff_of_nodup (ht.imp hne) (ho.imp hne)).2 h
  refine hperm.eq_of_pairwise (fun a b _ _ hab hba => ?_) ht ho
  exact absurd (String.lt_trans hab hba) (String.lt_irrefl a)

theorem pairwise_mergeSort (texts : List String) : texts.mergeSort.Pairwise (· ≤ ·) := by
  refine (List.pairwise_mergeSort (fun a b c hab hbc => ?_) (fun a b => ?_) _).imp fun h => ?_
  · exact decide_eq_true (String.le_trans (of_decide_eq_true hab) (of_decide_eq_true hbc))
  · simpa using String.le_total a b
  · exact of_decide_eq_true h

theorem ascending_mergeSort {texts : List String} (hn : texts.Nodup) :
    texts.mergeSort.Pairwise (· < ·) := by
  have hnodup : texts.mergeSort.Nodup := (List.mergeSort_perm texts _).nodup_iff.2 hn
  refine ((pairwise_mergeSort texts).and hnodup).imp fun h =>
    Decidable.byContradiction fun hlt => h.2 ?_
  exact String.le_antisymm h.1 (String.not_lt.1 hlt)

/-- The keys stand in ascending order, so the look-ups of a table settle it. -/
theorem ext_get? {s t : Table α} (h : ∀ key, s.get? key = t.get? key) : s = t := by
  have hmem : ∀ (t : Table α) (e : String × α), e ∈ t.entries ↔ t.get? e.1 = some e.2 :=
    fun t e => ⟨get?_of_mem, mem_of_entryFor?⟩
  have hperm : s.entries.Perm t.entries := by
    refine (List.perm_ext_iff_of_nodup (.of_map _ s.nodup_keys) (.of_map _ t.nodup_keys)).2 ?_
    intro e
    rw [hmem, hmem, h]
  refine ext_entries (hperm.eq_of_pairwise (fun a b _ _ hab hba => ?_) s.sorted t.sorted)
  exact absurd (String.lt_trans hab hba) (String.lt_irrefl a.1)

theorem mem_keys_iff {t : Table α} : key ∈ t.keys ↔ t.get? key ≠ none := by
  have hnone : t.get? key = none ↔ key ∉ t.keys := entryFor?_eq_none_iff
  rw [ne_eq, hnone, not_not]

theorem isEmpty_eq_false_iff {t : Table α} : t.isEmpty = false ↔ ∃ key a, t.get? key = some a := by
  rw [isEmpty, List.isEmpty_eq_false_iff_exists_mem]
  constructor
  · rintro ⟨e, he⟩
    exact ⟨e.1, e.2, get?_of_mem he⟩
  · rintro ⟨key, a, h⟩
    exact ⟨(key, a), mem_of_entryFor? h⟩

/-- Likewise the keys of a table are settled by which ones it has. -/
theorem ext_keys {s : Table α} {t : Table β} (h : ∀ key, key ∈ s.keys ↔ key ∈ t.keys) :
    s.keys = t.keys :=
  ascending_ext (List.pairwise_map.2 s.sorted) (List.pairwise_map.2 t.sorted) h

theorem mapEntries_eq_self {f : String → α → α} {t : Table α}
    (h : ∀ key a, t.get? key = some a → f key a = a) : t.mapEntries f = t := by
  obtain ⟨entries, sorted⟩ := t
  simp only [mapEntries, mk.injEq]
  refine (List.map_congr_left fun e he => ?_).trans (List.map_id entries)
  rw [h e.1 e.2 (get?_of_mem (t := ⟨entries, sorted⟩) he)]
  rfl

end BackupProfiles.Table
