import Mathlib.Data.List.Nodup

/-!
# Keys with values

Tables and flags are lists of keys with values, and a look-up takes the first entry with the key.
Writing a key changes what it stands for and nothing else (`entryFor?_writeEntry`). Where no key
stands twice, look-ups see the entries and not their order (`entryFor?_perm`).
-/

namespace BackupProfiles

variable {κ α β : Type} [DecidableEq κ] {entries others : List (κ × α)} {key : κ} {a : α}

/-- The value of the first entry with a key. -/
def entryFor? (entries : List (κ × α)) (key : κ) : Option α :=
  (entries.find? fun e => e.1 == key).map (·.2)

/-- Writes a key: in its place if it is there, at the end if it is new. -/
def writeEntry (key : κ) (a : α) : List (κ × α) → List (κ × α)
  | [] => [(key, a)]
  | e :: rest => if e.1 = key then (e.1, a) :: rest else e :: writeEntry key a rest

theorem entryFor?_nil (key : κ) : entryFor? ([] : List (κ × α)) key = none := rfl

theorem entryFor?_cons (e : κ × α) (rest : List (κ × α)) (key : κ) :
    entryFor? (e :: rest) key = if e.1 = key then some e.2 else entryFor? rest key := by
  unfold entryFor?
  by_cases h : e.1 = key
  · rw [List.find?_cons_of_pos (by simpa using h), if_pos h]
    rfl
  · rw [List.find?_cons_of_neg (by simpa using h), if_neg h]

theorem entryFor?_append (entries others : List (κ × α)) (key : κ) :
    entryFor? (entries ++ others) key = (entryFor? entries key).or (entryFor? others key) := by
  induction entries with
  | nil => simp [entryFor?_nil]
  | cons e rest ih =>
    rw [List.cons_append, entryFor?_cons, entryFor?_cons, ih]
    split <;> rfl

theorem mem_of_entryFor? (h : entryFor? entries key = some a) : (key, a) ∈ entries := by
  induction entries with
  | nil => simp [entryFor?_nil] at h
  | cons e rest ih =>
    rw [entryFor?_cons] at h
    split at h
    · rename_i he
      simp only [Option.some.injEq] at h
      rw [← he, ← h]
      exact List.mem_cons_self
    · exact List.mem_cons_of_mem _ (ih h)

theorem entryFor?_eq_none_iff : entryFor? entries key = none ↔ key ∉ entries.map (·.1) := by
  induction entries with
  | nil => simp [entryFor?_nil]
  | cons e rest ih =>
    rw [entryFor?_cons, List.map_cons, List.mem_cons, not_or]
    split
    · rename_i he
      simp [he]
    · rename_i he
      rw [ih]
      exact ⟨fun h => ⟨fun heq => he heq.symm, h⟩, fun h => h.2⟩

theorem entryFor?_of_mem (hn : (entries.map (·.1)).Nodup) (h : (key, a) ∈ entries) :
    entryFor? entries key = some a := by
  induction entries with
  | nil => simp at h
  | cons e rest ih =>
    rw [List.map_cons, List.nodup_cons] at hn
    rw [entryFor?_cons]
    rcases List.mem_cons.1 h with rfl | h
    · rw [if_pos rfl]
    · have hne : e.1 ≠ key := fun heq => hn.1 (heq ▸ List.mem_map_of_mem (f := Prod.fst) h)
      rw [if_neg hne]
      exact ih hn.2 h

theorem entryFor?_perm (hn : (entries.map (·.1)).Nodup) (h : entries.Perm others) :
    entryFor? entries key = entryFor? others key := by
  have hkeys : (entries.map (·.1)).Perm (others.map (·.1)) := h.map _
  rcases he : entryFor? entries key with _ | a
  · rw [entryFor?_eq_none_iff, hkeys.mem_iff] at he
    exact (entryFor?_eq_none_iff.2 he).symm
  · exact (entryFor?_of_mem (hkeys.nodup_iff.1 hn) (h.mem_iff.1 (mem_of_entryFor? he))).symm

theorem entryFor?_map (f : κ → α → β) (entries : List (κ × α)) (key : κ) :
    entryFor? (entries.map fun e => (e.1, f e.1 e.2)) key =
      (entryFor? entries key).map (f key) := by
  induction entries with
  | nil => rfl
  | cons e rest ih =>
    rw [List.map_cons, entryFor?_cons, entryFor?_cons, ih]
    by_cases h : e.1 = key
    · rw [if_pos h, if_pos h, Option.map_some, h]
    · rw [if_neg h, if_neg h]

theorem entryFor?_filter_ne (entries : List (κ × α)) (key other : κ) :
    entryFor? (entries.filter fun e => e.1 ≠ key) other =
      if key = other then none else entryFor? entries other := by
  induction entries with
  | nil => simp [entryFor?_nil]
  | cons e rest ih =>
    by_cases he : e.1 = key
    · rw [List.filter_cons_of_neg (by simpa using he), ih, entryFor?_cons, he]
      split <;> rfl
    · rw [List.filter_cons_of_pos (by simpa using he), entryFor?_cons, entryFor?_cons, ih]
      by_cases hk : key = other
      · rw [if_neg fun h => he (h.trans hk.symm), if_pos hk, if_pos hk]
      · rw [if_neg hk, if_neg hk]

/-- Where no key stands twice, the first entry with a key is the only one. -/
theorem eraseP_eq_filter (hn : (entries.map (·.1)).Nodup) (key : κ) :
    (entries.eraseP fun e => e.1 == key) = entries.filter fun e => e.1 ≠ key := by
  induction entries with
  | nil => rfl
  | cons e rest ih =>
    rw [List.map_cons, List.nodup_cons] at hn
    by_cases he : e.1 = key
    · have hrest : ∀ a ∈ rest, a.1 ≠ key := fun a ha heq =>
        hn.1 (List.mem_map.2 ⟨a, ha, heq.trans he.symm⟩)
      rw [List.eraseP_cons_of_pos (by simpa using he), List.filter_cons_of_neg (by simpa using he),
        List.filter_eq_self.2 fun a ha => by simpa using hrest a ha]
    · rw [List.eraseP_cons_of_neg (by simpa using he), List.filter_cons_of_pos (by simpa using he),
        ih hn.2]

theorem entryFor?_filter (keep : κ → Bool) (entries : List (κ × α)) (key : κ) :
    entryFor? (entries.filter fun e => keep e.1) key =
      if keep key then entryFor? entries key else none := by
  induction entries with
  | nil => simp [entryFor?_nil]
  | cons e rest ih =>
    rw [List.filter_cons, entryFor?_cons]
    split
    · rename_i he
      rw [entryFor?_cons, ih]
      by_cases hk : e.1 = key
      · rw [if_pos hk, if_pos hk, if_pos (hk ▸ he)]
      · rw [if_neg hk, if_neg hk]
    · rename_i he
      rw [ih]
      by_cases hk : e.1 = key
      · rw [if_neg (hk ▸ he), if_neg (hk ▸ he)]
      · rw [if_neg hk]

/-- Where no key stands twice, entries can be changed and left out one by one. -/
theorem entryFor?_filterMap (hn : (entries.map (·.1)).Nodup) (f : κ → α → Option β) (key : κ) :
    entryFor? (entries.filterMap fun e => (f e.1 e.2).map (e.1, ·)) key =
      (entryFor? entries key).bind (f key) := by
  induction entries with
  | nil => rfl
  | cons e rest ih =>
    rw [List.map_cons, List.nodup_cons, ← entryFor?_eq_none_iff] at hn
    rw [List.filterMap_cons, entryFor?_cons]
    rcases hf : f e.1 e.2 with _ | b
    · rw [Option.map_none, ih hn.2]
      by_cases hk : e.1 = key
      · rw [if_pos hk, ← hk, hn.1, Option.bind_none, Option.bind_some, hf]
      · rw [if_neg hk]
    · rw [Option.map_some, entryFor?_cons, ih hn.2]
      by_cases hk : e.1 = key
      · rw [if_pos hk, if_pos hk, Option.bind_some, ← hk, hf]
      · rw [if_neg hk, if_neg hk]

omit [DecidableEq κ] in
theorem nodup_filterMap (hn : (entries.map (·.1)).Nodup) (f : κ → α → Option β) :
    ((entries.filterMap fun e => (f e.1 e.2).map (e.1, ·)).map (·.1)).Nodup := by
  induction entries with
  | nil => exact List.nodup_nil
  | cons e rest ih =>
    rw [List.map_cons, List.nodup_cons] at hn
    rw [List.filterMap_cons]
    rcases f e.1 e.2 with _ | b
    · exact ih hn.2
    · rw [Option.map_some, List.map_cons, List.nodup_cons]
      refine ⟨fun h => hn.1 ?_, ih hn.2⟩
      obtain ⟨a, ha, hkey⟩ := List.mem_map.1 h
      obtain ⟨c, hc, hac⟩ := List.mem_filterMap.1 ha
      obtain ⟨d, -, rfl⟩ := Option.map_eq_some_iff.1 hac
      rw [← hkey]
      exact List.mem_map_of_mem (f := Prod.fst) hc

theorem entryFor?_writeEntry (key : κ) (a : α) (entries : List (κ × α)) (other : κ) :
    entryFor? (writeEntry key a entries) other =
      if key = other then some a else entryFor? entries other := by
  induction entries with
  | nil => rw [writeEntry, entryFor?_cons]
  | cons e rest ih =>
    rw [writeEntry]
    split
    · rename_i he
      rw [entryFor?_cons, entryFor?_cons, he]
      split <;> rfl
    · rename_i he
      rw [entryFor?_cons, entryFor?_cons, ih]
      by_cases hk : key = other
      · rw [if_neg fun h => he (h.trans hk.symm), if_pos hk, if_pos hk]
      · rw [if_neg hk, if_neg hk]

/-- Writing a key that is left out changes nothing, and any other key is written where it was. -/
theorem filter_writeEntry (keep : κ → Bool) (key : κ) (a : α) (entries : List (κ × α)) :
    (writeEntry key a entries).filter (fun e => keep e.1) =
      if keep key then writeEntry key a (entries.filter fun e => keep e.1)
      else entries.filter fun e => keep e.1 := by
  induction entries with
  | nil => cases h : keep key <;> simp [writeEntry, h]
  | cons e rest ih =>
    rw [writeEntry]
    by_cases he : e.1 = key
    · rw [if_pos he, List.filter_cons, List.filter_cons, he]
      split
      · rw [writeEntry, if_pos he, he]
      · rfl
    · rw [if_neg he, List.filter_cons, List.filter_cons, ih]
      cases keep e.1
      · rfl
      · cases keep key
        · rfl
        · simp only [if_true, writeEntry, if_neg he]

theorem keys_writeEntry (key : κ) (a : α) (entries : List (κ × α)) :
    (writeEntry key a entries).map (·.1) =
      if key ∈ entries.map (·.1) then entries.map (·.1) else entries.map (·.1) ++ [key] := by
  induction entries with
  | nil => simp [writeEntry]
  | cons e rest ih =>
    rw [writeEntry, List.map_cons]
    by_cases he : e.1 = key
    · rw [if_pos he, if_pos (List.mem_cons.2 (Or.inl he.symm)), List.map_cons]
    · rw [if_neg he, List.map_cons, ih]
      by_cases hk : key ∈ rest.map (·.1)
      · rw [if_pos hk, if_pos (List.mem_cons_of_mem _ hk)]
      · rw [if_neg hk, if_neg fun h => (List.mem_cons.1 h).elim (fun h => he h.symm) hk,
          List.cons_append]

theorem writeEntry_of_notMem (h : key ∉ entries.map (·.1)) (a : α) :
    writeEntry key a entries = entries ++ [(key, a)] := by
  induction entries with
  | nil => rfl
  | cons e rest ih =>
    rw [List.map_cons, List.mem_cons, not_or] at h
    rw [writeEntry, if_neg (Ne.symm h.1), ih h.2, List.cons_append]

/-- Of two values that are written one after the other the second stays. -/
theorem writeEntry_writeEntry (key : κ) (a b : α) (entries : List (κ × α)) :
    writeEntry key b (writeEntry key a entries) = writeEntry key b entries := by
  induction entries with
  | nil => simp [writeEntry]
  | cons e rest ih =>
    rw [writeEntry, writeEntry]
    split
    · rename_i he
      rw [writeEntry, if_pos he]
    · rename_i he
      rw [writeEntry, if_neg he, ih]

theorem nodup_writeEntry (hn : (entries.map (·.1)).Nodup) (key : κ) (a : α) :
    ((writeEntry key a entries).map (·.1)).Nodup := by
  rw [keys_writeEntry]
  split
  · exact hn
  · rename_i hk
    rw [List.nodup_append]
    refine ⟨hn, List.nodup_singleton key, fun b hb c hc => ?_⟩
    rw [List.mem_singleton.1 hc]
    exact fun h => hk (h ▸ hb)

end BackupProfiles
