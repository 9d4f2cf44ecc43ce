import BackupProfiles.Proofs.Reading.Account

/-!
# Sections that are read

An open section is checked in document order, and the first fault counts. Where no key stands twice,
it has no fault exactly if its shape accepts the value of every key, whatever the order
(`fault?_eq_none_iff`).
-/

namespace BackupProfiles

variable {es : Entries} {m : Mapping} {s : Shape} {own group : FieldChecks} {name : String}
  {v : Value}

/-- The check of a field, where there is one, has no fault with a value. -/
def FieldChecks.Passes (g : FieldChecks) (name : String) (v : Value) : Prop :=
  ∀ check, g.lookup name = some check → check v = none

/-- A shape has no fault with the value of a key. -/
structure Shape.Accepts (s : Shape) (name : String) (v : Value) : Prop where
  passes : ∀ g ∈ s.own :: s.groups, g.Passes name v
  untagged : s.own.lookup name = none → v.hasTag = false
  flag : name ∉ s.fieldNames → ∃ x, FlagValue.ofValue v = .ok x

theorem FieldChecks.passes_of_lookup {g : FieldChecks} {check : Value → Option Fault}
    (h : g.lookup name = some check) : g.Passes name v ↔ check v = none := by
  refine ⟨fun hp => hp check h, fun hc other ho => ?_⟩
  rw [h, Option.some.injEq] at ho
  rwa [← ho]

theorem FieldChecks.passes_of_lookup_none {g : FieldChecks} (h : g.lookup name = none) :
    g.Passes name v := by
  intro check hc
  rw [h] at hc
  cases hc

theorem FieldChecks.lookup_eq_none_iff {g : FieldChecks} :
    g.lookup name = none ↔ name ∉ Shape.names g := by
  rw [List.lookup_eq_none_iff, Shape.names, List.mem_map]
  constructor
  · rintro h ⟨e, he, rfl⟩
    simpa using h e he
  · intro h e he
    simpa using fun heq : name = e.1 => h ⟨e, he, heq.symm⟩

theorem Entries.mem_iff_get? (hn : (es.map (·.1)).Nodup) :
    (name, v) ∈ es ↔ es.get? name = some v := by
  rw [get?_eq]
  exact ⟨entryFor?_of_mem hn, mem_of_entryFor?⟩

namespace Shape

theorem ownFault?_eq_none_iff (hn : (es.map (·.1)).Nodup) {seen : List String}
    (hs : ∀ name ∈ seen, name ∉ es.map (·.1)) :
    ownFault? own seen (es.map fun e => (.string e.1, e.2)) = none ↔
      ∀ e ∈ es, own.Passes e.1 e.2 ∧ (own.lookup e.1 = none → e.2.hasTag = false) := by
  induction es generalizing seen with
  | nil => simp [ownFault?]
  | cons e rest ih =>
    obtain ⟨name, v⟩ := e
    rw [List.map_cons, List.nodup_cons] at hn
    have hrest : ∀ n ∈ seen, n ∉ rest.map (·.1) :=
      fun n h hr => hs n h (List.mem_cons_of_mem _ hr)
    rw [List.map_cons, ownFault?, List.forall_mem_cons]
    simp only [Value.untagged]
    rcases hl : own.lookup name with _ | check
    · have hpass := FieldChecks.passes_of_lookup_none (v := v) hl
      rcases v.hasTag with _ | _
      · simp [ih hn.2 hrest, hpass]
      · simp
    · have hseen : name ∉ seen := fun h => hs name h List.mem_cons_self
      have hrest' : ∀ n ∈ name :: seen, n ∉ rest.map (·.1) :=
        List.forall_mem_cons.2 ⟨hn.1, hrest⟩
      simp [hseen, ih hn.2 hrest', FieldChecks.passes_of_lookup hl]

theorem groupFault?_eq_none_iff (hn : (es.map (·.1)).Nodup) {seen : List String}
    (hs : ∀ name ∈ seen, name ∉ es.map (·.1)) :
    groupFault? group seen es = none ↔ ∀ e ∈ es, group.Passes e.1 e.2 := by
  induction es generalizing seen with
  | nil => simp [groupFault?]
  | cons e rest ih =>
    obtain ⟨name, v⟩ := e
    rw [List.map_cons, List.nodup_cons] at hn
    have hrest : ∀ n ∈ seen, n ∉ rest.map (·.1) :=
      fun n h hr => hs n h (List.mem_cons_of_mem _ hr)
    rw [groupFault?, List.forall_mem_cons]
    rcases hl : group.lookup name with _ | check
    · have hpass := FieldChecks.passes_of_lookup_none (v := v) hl
      simp [ih hn.2 hrest, hpass]
    · have hseen : name ∉ seen := fun h => hs name h List.mem_cons_self
      have hrest' : ∀ n ∈ name :: seen, n ∉ rest.map (·.1) :=
        List.forall_mem_cons.2 ⟨hn.1, hrest⟩
      simp [hseen, ih hn.2 hrest', FieldChecks.passes_of_lookup hl]

theorem flagFault?_eq_none_iff : flagFault? (s.others es) = none ↔
    ∀ e ∈ es, e.1 ∉ s.fieldNames → ∃ x, FlagValue.ofValue e.2 = .ok x := by
  have hfault : ∀ v : Value, Reader.fault? Reader.flagValue v = none ↔
      ∃ x, FlagValue.ofValue v = .ok x := by
    intro v
    unfold Reader.fault? Reader.flagValue
    rcases FlagValue.ofValue v with why | x <;> simp
  rw [flagFault?, List.findSome?_eq_none_iff]
  simp only [hfault, others, List.mem_filter, and_imp, Bool.not_eq_eq_eq_not, Bool.not_true,
    List.contains_eq_mem, decide_eq_false_iff_not]

/-- A section whose own fields have no fault has texts as keys. -/
theorem untagged_key_of_ownFault?_eq_none {seen : List String}
    (h : ownFault? own seen m = none) : ∀ e ∈ m, ∃ n, e.1.untagged = .string n := by
  induction m generalizing seen with
  | nil => simp
  | cons e rest ih =>
    rw [ownFault?] at h
    split at h
    · rename_i n hn
      refine List.forall_mem_cons.2 ⟨⟨n, hn⟩, ?_⟩
      split at h
      · split at h
        · cases h
        · exact ih (Option.or_eq_none_iff.1 h).2
      · split at h
        · cases h
        · exact ih h
    · cases h

/-- Without double keys the order of entries decides which fault comes first, not whether there is
one. -/
theorem fault?_map_string_eq_none_iff (hn : (es.map (·.1)).Nodup) :
    s.fault? (es.map fun e => (.string e.1, e.2)) = none ↔ ∀ e ∈ es, s.Accepts e.1 e.2 := by
  have hseen : ∀ name ∈ ([] : List String), name ∉ es.map (·.1) := by simp
  have hgroups : (s.groups.findSome? fun g => groupFault? g [] es) = none ↔
      ∀ g ∈ s.groups, ∀ e ∈ es, g.Passes e.1 e.2 := by
    rw [List.findSome?_eq_none_iff]
    exact forall₂_congr fun g _ => groupFault?_eq_none_iff hn hseen
  unfold fault?
  simp only [Entries.ofMapping_map_string]
  rw [Option.or_eq_none_iff, Option.or_eq_none_iff, ownFault?_eq_none_iff hn hseen, hgroups,
    flagFault?_eq_none_iff]
  constructor
  · rintro ⟨⟨ho, hg⟩, hf⟩ e he
    exact ⟨List.forall_mem_cons.2 ⟨(ho e he).1, fun g h => hg g h e he⟩, (ho e he).2, hf e he⟩
  · intro h
    refine ⟨⟨fun e he => ?_, fun g hg e he => ?_⟩, fun e he => (h e he).flag⟩
    · exact ⟨(h e he).passes s.own List.mem_cons_self, (h e he).untagged⟩
    · exact (h e he).passes g (List.mem_cons_of_mem _ hg)

theorem fault?_eq_none_iff (hp : (Value.mapping m).Plain) (hn : m.keys.Nodup) :
    s.fault? m = none ↔ ∀ name v, m.get? (.string name) = some v → s.Accepts name v := by
  have hnodup := Entries.nodup_ofMapping hp hn
  have hget : ∀ name v, m.get? (.string name) = some v ↔ (name, v) ∈ Entries.ofMapping m :=
    fun name v => by rw [Entries.mem_iff_get? hnodup, Entries.get?_ofMapping hp]
  simp only [hget]
  conv_lhs => rw [← Entries.map_ofMapping hp]
  rw [fault?_map_string_eq_none_iff hnodup, Prod.forall]

end Shape

end BackupProfiles
