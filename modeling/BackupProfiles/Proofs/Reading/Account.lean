import BackupProfiles.Proofs.Table.Lookup
import BackupProfiles.Proofs.Value.Plain

/-!
# What becomes of the keys of a section

An open section that is read has a value for each of its fields that stands in the document, and
its flags are the other keys with their values (`accounts_of_readOpen`): none is lost and none is
made up.
-/

namespace BackupProfiles

/-- What a value is as a flag. -/
def FlagValue.ofValue? (v : Value) : Option FlagValue := (ofValue v).toOption

/-- The flags of a section are the keys of its value that are no fields. They stand for what their
values are as flags, rewritten by `change`. -/
structure Shape.Accounts (s : Shape) (change : String → FlagValue → FlagValue) (v : Value)
    (flags : Table FlagValue) : Prop where
  held : ∀ name w, v.member? name = some w → name ∉ s.fieldNames →
    ∃ x, FlagValue.ofValue w = .ok x ∧ flags.get? name = some (change name x)
  only : ∀ name x, flags.get? name = some x → name ∉ s.fieldNames ∧
    ∃ w y, v.member? name = some w ∧ FlagValue.ofValue w = .ok y ∧ x = change name y

variable {m : Mapping} {es : Entries} {s : Shape} {name : String} {v w : Value}

theorem toOption_eq_some {ε α : Type} {result : Except ε α} {a : α} :
    result.toOption = some a ↔ result = .ok a := by
  rcases result with e | b <;> simp [Except.toOption]

theorem FlagValue.ofValue_untagged : ∀ v : Value, ofValue v.untagged = ofValue v
  | .tagged _ v => by
    rw [Value.untagged, ofValue]
    exact ofValue_untagged v
  | .null | .bool _ | .number _ | .string _ | .list _ | .mapping _ => rfl

theorem FlagValue.ofValue?_eq_some {x : FlagValue} : ofValue? v = some x ↔ ofValue v = .ok x :=
  toOption_eq_some

namespace Entries

theorem get?_eq (es : Entries) (name : String) : es.get? name = entryFor? es name := by
  induction es with
  | nil => rfl
  | cons e rest ih =>
    rw [get?, List.lookup_cons, entryFor?_cons]
    split
    · rename_i h
      rw [if_pos (beq_iff_eq.1 h).symm]
    · rename_i h
      rw [if_neg fun he => by simp [he] at h]
      exact ih

/-- No entry is left out where all keys are texts. -/
theorem map_ofMapping_of_texts (h : ∀ e ∈ m, ∃ s, e.1 = .string s) :
    (ofMapping m).map (fun e => (Value.string e.1, e.2)) = m := by
  induction m with
  | nil => rfl
  | cons e rest ih =>
    obtain ⟨key, v⟩ := e
    rw [List.forall_mem_cons] at h
    obtain ⟨⟨s, hs⟩, hrest⟩ := h
    simp only at hs
    subst hs
    exact congrArg _ (ih hrest)

theorem map_ofMapping (hp : (Value.mapping m).Plain) :
    (ofMapping m).map (fun e => (Value.string e.1, e.2)) = m :=
  map_ofMapping_of_texts fun _ he => hp.key_eq he

theorem ofMapping_map_string (es : Entries) :
    ofMapping (es.map fun e => (Value.string e.1, e.2)) = es := by
  rw [ofMapping, List.filterMap_map]
  exact List.filterMap_some

theorem get?_map_string (es : Entries) (name : String) :
    Mapping.get? (es.map fun e => (Value.string e.1, e.2)) (.string name) = es.get? name := by
  rw [get?_eq]
  induction es with
  | nil => rfl
  | cons e rest ih =>
    rw [List.map_cons, Mapping.get?_cons, ih, entryFor?_cons]
    simp only [Value.sameKey_string, Value.string.injEq]

theorem get?_ofMapping (hp : (Value.mapping m).Plain) (name : String) :
    (ofMapping m).get? name = m.get? (.string name) := by
  rw [← get?_map_string, map_ofMapping hp]

theorem nodup_ofMapping (hp : (Value.mapping m).Plain) (hn : m.keys.Nodup) :
    ((ofMapping m).map (·.1)).Nodup := by
  rw [← map_ofMapping hp, Mapping.keys, List.map_map] at hn
  exact List.Nodup.of_map Value.string (by rwa [List.map_map])

/-- A field that is there and can be read holds what its reader makes of it. -/
theorem read_eq {α : Type} {r : Reader α} {default : α} (h : es.get? name = some v)
    (hr : r.fault? v = none) : r v = .ok (es.read name r default) := by
  rw [read, h]
  rw [Reader.fault?] at hr
  split at hr
  · rename_i a ha
    simp only [ha]
  · cases hr

end Entries

namespace Shape

theorem flags_eq (s : Shape) (es : Entries) : s.flags es =
    Table.ofList ((s.others es).filterMap fun e => (FlagValue.ofValue? e.2).map (e.1, ·)) := by
  rw [flags]
  congr 1
  refine List.filterMap_congr fun e _ => ?_
  rw [FlagValue.ofValue?]
  rcases FlagValue.ofValue e.2 with why | x <;> rfl

theorem mem_of_get?_flags {x : FlagValue} (h : (s.flags es).get? name = some x) :
    name ∉ s.fieldNames ∧ ∃ w, (name, w) ∈ es ∧ FlagValue.ofValue w = .ok x := by
  rw [flags_eq, Table.get?_ofList] at h
  obtain ⟨e, he, hx⟩ := List.mem_filterMap.1 (List.mem_reverse.1 (mem_of_entryFor? h))
  obtain ⟨y, hy, hxy⟩ := Option.map_eq_some_iff.1 hx
  obtain ⟨rfl, rfl⟩ := Prod.mk.inj hxy
  obtain ⟨hmem, hother⟩ := List.mem_filter.1 he
  exact ⟨by simpa using hother, e.2, hmem, FlagValue.ofValue?_eq_some.1 hy⟩

theorem nodup_others (hn : (es.map (·.1)).Nodup) (s : Shape) :
    ((s.others es).map (·.1)).Nodup :=
  hn.sublist (List.filter_sublist.map _)

theorem get?_others (s : Shape) (es : Entries) (name : String) :
    (s.others es).get? name = if name ∈ s.fieldNames then none else es.get? name := by
  rw [Entries.get?_eq, Entries.get?_eq]
  show entryFor? (es.filter fun e => (fun n => !s.fieldNames.contains n) e.1) name = _
  rw [entryFor?_filter fun n => !s.fieldNames.contains n]
  by_cases h : name ∈ s.fieldNames <;> simp [h]

theorem get?_flags (hn : (es.map (·.1)).Nodup) (s : Shape) (name : String) :
    (s.flags es).get? name =
      if name ∈ s.fieldNames then none else (es.get? name).bind FlagValue.ofValue? := by
  have hothers := nodup_others hn s
  rw [flags_eq, Table.get?_ofList_of_nodup (nodup_filterMap hothers fun _ => FlagValue.ofValue?),
    entryFor?_filterMap hothers fun _ => FlagValue.ofValue?, ← Entries.get?_eq, get?_others]
  split <;> rfl

/-- A section without faults has no value that cannot stand in a flag. -/
theorem ofValue_of_fault?_eq_none (h : s.fault? m = none)
    (hw : (s.others (.ofMapping m)).get? name = some w) : ∃ x, FlagValue.ofValue w = .ok x := by
  have hflags : flagFault? (s.others (Entries.ofMapping m)) = none := by
    unfold fault? at h
    exact (Option.or_eq_none_iff.1 h).2
  rw [Entries.get?_eq] at hw
  have hnone := List.findSome?_eq_none_iff.1 hflags _ (mem_of_entryFor? hw)
  rw [Reader.fault?, Reader.flagValue] at hnone
  rcases hx : FlagValue.ofValue w with why | x
  · simp [hx] at hnone
  · exact ⟨x, rfl⟩

/-- What an open section that is read was read from. -/
theorem readOpen_cases {σ : Type} {build : Entries → σ} {a : σ} (hp : v.Plain)
    (h : s.readOpen build v = .ok a) :
    (v = .null ∧ a = build []) ∨
      ∃ m, v = .mapping m ∧ s.fault? m = none ∧ a = build (.ofMapping m) := by
  rw [readOpen, hp.untagged_eq] at h
  split at h
  · rename_i m
    split at h
    · cases h
    · rename_i hf
      exact Or.inr ⟨m, rfl, hf, (Except.ok.inj h).symm⟩
  · exact Or.inl ⟨rfl, (Except.ok.inj h).symm⟩
  · cases h

theorem accounts_of_fault?_eq_none (hp : (Value.mapping m).Plain) (hn : m.keys.Nodup)
    (h : s.fault? m = none) :
    s.Accounts (fun _ x => x) (.mapping m) (s.flags (.ofMapping m)) := by
  have hnodup := Entries.nodup_ofMapping hp hn
  refine ⟨fun name w hw hfield => ?_, fun name x hx => ?_⟩
  · have hget : (Entries.ofMapping m).get? name = some w :=
      (Entries.get?_ofMapping hp name).trans hw
    have hother : (s.others (Entries.ofMapping m)).get? name = some w := by
      rw [get?_others, if_neg hfield, hget]
    obtain ⟨x, hx⟩ := ofValue_of_fault?_eq_none h hother
    refine ⟨x, hx, ?_⟩
    rw [get?_flags hnodup, if_neg hfield, hget]
    exact FlagValue.ofValue?_eq_some.2 hx
  · rw [get?_flags hnodup] at hx
    split at hx
    · cases hx
    · rename_i hfield
      obtain ⟨w, hw, hx⟩ := Option.bind_eq_some_iff.1 hx
      rw [Entries.get?_ofMapping hp] at hw
      exact ⟨hfield, w, x, hw, FlagValue.ofValue?_eq_some.1 hx, rfl⟩

/-- The flags of a section that is read are the keys that are no fields. -/
theorem accounts_of_readOpen {σ : Type} {build : Entries → σ} {a : σ} (hp : v.Plain) (ht : v.Tidy)
    (h : s.readOpen build v = .ok a) :
    ∃ es, a = build es ∧ s.Accounts (fun _ x => x) v (s.flags es) := by
  rcases readOpen_cases hp h with ⟨rfl, rfl⟩ | ⟨m, rfl, hf, rfl⟩
  · exact ⟨[], rfl, fun _ _ hw _ => (nomatch hw), fun _ _ hx => (nomatch hx)⟩
  · exact ⟨_, rfl, accounts_of_fault?_eq_none hp ht.nodup hf⟩

/-- Rewriting the flags of a section. -/
theorem Accounts.mapEntries {flags : Table FlagValue} (h : s.Accounts (fun _ x => x) v flags)
    (change : String → FlagValue → FlagValue) : s.Accounts change v (flags.mapEntries change) := by
  refine ⟨fun name w hw hfield => ?_, fun name x hx => ?_⟩
  · obtain ⟨x, hx, hget⟩ := h.held name w hw hfield
    exact ⟨x, hx, by rw [Table.get?_mapEntries, hget, Option.map_some]⟩
  · rw [Table.get?_mapEntries] at hx
    obtain ⟨y, hy, rfl⟩ := Option.map_eq_some_iff.1 hx
    obtain ⟨hfield, w, z, hw, hz, rfl⟩ := h.only name y hy
    exact ⟨hfield, w, y, hw, hz, rfl⟩

end Shape

end BackupProfiles
