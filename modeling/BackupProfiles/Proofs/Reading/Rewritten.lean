import BackupProfiles.Proofs.Mapping.Values
import BackupProfiles.Proofs.Reading.Account

/-!
# Reading rewritten sections

Values that are rewritten by the names of their fields read like before, if no field and no flag
sees the difference (`Shape.Spares`). Then the whole section has the same fault and the same flags.
-/

namespace BackupProfiles

variable {f : String → Value → Value} {rewriting : Value → Value → Value} {es : Entries}
  {m : Mapping} {s : Shape} {name : String}

/-- Entries with their values rewritten, each by its name. -/
def Entries.rewrite (f : String → Value → Value) (es : Entries) : Entries :=
  es.map fun e => (e.1, f e.1 e.2)

namespace Entries

theorem rewrite_cons (f : String → Value → Value) (e : String × Value) (rest : Entries) :
    rewrite f (e :: rest) = (e.1, f e.1 e.2) :: rewrite f rest := rfl

theorem get?_rewrite (f : String → Value → Value) (es : Entries) (name : String) :
    (es.rewrite f).get? name = (es.get? name).map (f name) := by
  rw [get?_eq, get?_eq]
  exact entryFor?_map f es name

/-- A field whose reader sees no difference. -/
theorem read_rewrite {α : Type} {r : Reader α} (h : ∀ v, r (f name v) = r v) (es : Entries)
    (default : α) : (es.rewrite f).read name r default = es.read name r default := by
  unfold read
  rw [get?_rewrite]
  rcases es.get? name with _ | v
  · rfl
  · rw [Option.map_some]
    simp only [h]

theorem ofMapping_mapValues (h : Mapping.GoesByTexts rewriting f) (m : Mapping) :
    ofMapping (m.mapValues rewriting) = (ofMapping m).rewrite f := by
  induction m with
  | nil => rfl
  | cons e rest ih =>
    obtain ⟨key, v⟩ := e
    unfold ofMapping at ih ⊢
    rcases hk : key.untagged with _ | _ | _ | name | _ | _ | _ <;>
      simp only [Mapping.mapValues_cons, List.filterMap_cons, hk, ih, rewrite_cons]
    rw [h key name hk]

end Entries

namespace Shape

/-- The flags of a section see nothing of a rewriting. -/
def KeepsFlags (s : Shape) (f : String → Value → Value) : Prop :=
  ∀ name, name ∉ s.fieldNames → ∀ v, FlagValue.ofValue (f name v) = FlagValue.ofValue v

/-- Reading a section of a shape sees nothing of a rewriting. -/
structure Spares (s : Shape) (f : String → Value → Value) : Prop where
  checks : ∀ group ∈ s.own :: s.groups, ∀ e ∈ group, ∀ v, e.2 (f e.1 v) = e.2 v
  flags : s.KeepsFlags f
  tags : ∀ name v, (f name v).hasTag = v.hasTag

section Faults

variable {own group : FieldChecks}

theorem check_rewrite {check : Value → Option Fault} (hg : ∀ e ∈ group, ∀ v, e.2 (f e.1 v) = e.2 v)
    (h : group.lookup name = some check) (v : Value) : check (f name v) = check v := by
  obtain ⟨front, back, rfl, -⟩ := List.lookup_eq_some_iff.1 h
  exact hg (name, check) (by simp) v

theorem ownFault?_mapValues (h : Mapping.GoesByTexts rewriting f)
    (ho : ∀ e ∈ own, ∀ v, e.2 (f e.1 v) = e.2 v)
    (ht : ∀ name v, (f name v).hasTag = v.hasTag) (m : Mapping) (seen : List String) :
    ownFault? own seen (m.mapValues rewriting) = ownFault? own seen m := by
  induction m generalizing seen with
  | nil => rfl
  | cons e rest ih =>
    obtain ⟨key, v⟩ := e
    rw [Mapping.mapValues_cons, ownFault?, ownFault?]
    rcases hk : key.untagged with _ | _ | _ | name | _ | _ | _ <;> simp only []
    rw [h key name hk]
    rcases hl : own.lookup name with _ | check <;> simp only []
    · rw [ht, ih]
    · rw [check_rewrite ho hl, ih]

theorem groupFault?_rewrite (hg : ∀ e ∈ group, ∀ v, e.2 (f e.1 v) = e.2 v) (es : Entries)
    (seen : List String) : groupFault? group seen (es.rewrite f) = groupFault? group seen es := by
  induction es generalizing seen with
  | nil => rfl
  | cons e rest ih =>
    rw [Entries.rewrite_cons, groupFault?, groupFault?]
    rcases hl : group.lookup e.1 with _ | check <;> simp only []
    · exact ih seen
    · rw [check_rewrite hg hl, ih]

end Faults

theorem others_rewrite (s : Shape) (f : String → Value → Value) (es : Entries) :
    s.others (es.rewrite f) = (s.others es).rewrite f := by
  unfold others Entries.rewrite
  rw [List.filter_map]
  rfl

theorem KeepsFlags.ofValue (h : s.KeepsFlags f) : ∀ e ∈ s.others es,
    FlagValue.ofValue (f e.1 e.2) = FlagValue.ofValue e.2 := fun e he =>
  h e.1 (by simpa using (List.mem_filter.1 he).2) e.2

theorem flags_rewrite (h : s.KeepsFlags f) (es : Entries) :
    s.flags (es.rewrite f) = s.flags es := by
  rw [flags_eq, flags_eq, others_rewrite, Entries.rewrite, List.filterMap_map]
  congr 1
  refine List.filterMap_congr fun e he => ?_
  simp only [Function.comp_apply, FlagValue.ofValue?, h.ofValue e he]

theorem flagFault?_rewrite (h : s.KeepsFlags f) (es : Entries) :
    flagFault? (s.others (es.rewrite f)) = flagFault? (s.others es) := by
  have hall : ∀ es : Entries,
      (∀ e ∈ es, FlagValue.ofValue (f e.1 e.2) = FlagValue.ofValue e.2) →
      flagFault? (es.rewrite f) = flagFault? es := by
    intro es hes
    induction es with
    | nil => rfl
    | cons e rest ih =>
      rw [List.forall_mem_cons] at hes
      have hrest := ih hes.2
      unfold flagFault? Entries.rewrite at hrest ⊢
      rw [List.map_cons, List.findSome?_cons, List.findSome?_cons, hrest]
      simp only [Reader.fault?, Reader.flagValue, hes.1]
  rw [others_rewrite]
  exact hall _ h.ofValue

theorem fault?_mapValues (h : Mapping.GoesByTexts rewriting f) (hs : s.Spares f) (m : Mapping) :
    s.fault? (m.mapValues rewriting) = s.fault? m := by
  have hchecks := List.forall_mem_cons.1 hs.checks
  have hgroups : ∀ (groups : List FieldChecks) (es : Entries),
      (∀ group ∈ groups, ∀ e ∈ group, ∀ v, e.2 (f e.1 v) = e.2 v) →
      (groups.findSome? fun group => groupFault? group [] (es.rewrite f)) =
        groups.findSome? fun group => groupFault? group [] es := by
    intro groups es hall
    induction groups with
    | nil => rfl
    | cons group rest ih =>
      rw [List.forall_mem_cons] at hall
      rw [List.findSome?_cons, List.findSome?_cons, groupFault?_rewrite hall.1, ih hall.2]
  simp only [fault?, Entries.ofMapping_mapValues h, ownFault?_mapValues h hchecks.1 hs.tags,
    hgroups _ _ hchecks.2, flagFault?_rewrite hs.flags]

/-- The section is read to the same. -/
theorem readOpen_mapValues {σ : Type} {build : Entries → σ}
    (h : Mapping.GoesByTexts rewriting f) (hs : s.Spares f)
    (hb : ∀ es : Entries, build (es.rewrite f) = build es) (m : Mapping) :
    s.readOpen build (.mapping (m.mapValues rewriting)) = s.readOpen build (.mapping m) := by
  rw [readOpen, readOpen]
  simp only [Value.untagged]
  rw [fault?_mapValues h hs, Entries.ofMapping_mapValues h, hb]

end Shape

end BackupProfiles
