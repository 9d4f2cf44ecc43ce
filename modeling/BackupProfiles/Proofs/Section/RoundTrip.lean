import BackupProfiles.Proofs.Reading.Written
import BackupProfiles.Section.Generic

/-!
# Sections read what they write

A generic section and a retention section that were read are written as values that they are read
from again (`sections_read_back`). That the result equals the section as a matter of numbers needs
a document without what is not a number, since that equals nothing.
-/

namespace BackupProfiles

namespace Value

mutual

/-- Whether what is not a number stands anywhere in the value. -/
def hasNaN : Value → Bool
  | .number (.float x) => x.isNaN
  | .list items => anyHasNaN items
  | .mapping entries => anyEntryHasNaN entries
  | .tagged _ content => content.hasNaN
  | _ => false

def anyHasNaN : List Value → Bool
  | [] => false
  | v :: rest => v.hasNaN || anyHasNaN rest

def anyEntryHasNaN : List (Value × Value) → Bool
  | [] => false
  | (k, v) :: rest => k.hasNaN || v.hasNaN || anyEntryHasNaN rest

end

variable {v : Value}

theorem hasNaN_untagged : ∀ v : Value, v.untagged.hasNaN = v.hasNaN
  | .tagged _ v => by
    rw [untagged, hasNaN]
    exact hasNaN_untagged v
  | .null | .bool _ | .number _ | .string _ | .list _ | .mapping _ => rfl

theorem hasNaN_of_mem {m : Mapping} (h : (mapping m).hasNaN = false) :
    ∀ e ∈ m, e.2.hasNaN = false := by
  rw [hasNaN] at h
  induction m with
  | nil => simp
  | cons e rest ih =>
    rw [anyEntryHasNaN, Bool.or_eq_false_iff, Bool.or_eq_false_iff] at h
    exact List.forall_mem_cons.2 ⟨h.1.2, ih h.2⟩

end Value

variable {v : Value} {x : FlagValue} {es : Entries} {s : Shape}

namespace FlagValue

theorem ne_nan_of_ofValue (h : ofValue v = .ok x) (hv : v.hasNaN = false) : x ≠ .float .nan := by
  intro hnan
  have horigin := origin_of_ofValue h
  rw [← Value.hasNaN_untagged] at hv
  generalize v.untagged = w at horigin hv
  cases horigin with
  | number n =>
    rcases n with i | y
    · rw [ofNumber] at hnan
      split at hnan <;> cases hnan
    · cases hnan
      cases hv
  | _ => cases hnan

theorem beq_self (h : x ≠ .float .nan) : (x == x) = true := by
  show same x x = true
  cases x with
  | float y => cases y <;> simp_all [same, Binary64.sameNumber]
  | _ => simp [same]

end FlagValue

theorem Table.beq_self {t : Table FlagValue} (h : ∀ e ∈ t.entries, e.2 ≠ .float .nan) :
    (t == t) = true := by
  show (t.entries == t.entries) = true
  generalize t.entries = entries at h
  induction entries with
  | nil => rfl
  | cons e rest ih =>
    obtain ⟨he, hrest⟩ := List.forall_mem_cons.1 h
    have hentry : (e == e) = true := by
      show (e.1 == e.1 && e.2 == e.2) = true
      rw [beq_self_eq_true, FlagValue.beq_self he, Bool.and_true]
    rw [List.cons_beq_cons, hentry, ih hrest, Bool.and_true]

/-- A document without what is not a number gives no such flag. -/
theorem Shape.flags_ne_nan_of_readOpen {σ : Type} {build : Entries → σ} {a : σ}
    (h : s.readOpen build v = .ok a) (hv : v.hasNaN = false) :
    ∃ es, a = build es ∧ ∀ e ∈ (s.flags es).entries, e.2 ≠ .float .nan := by
  have hflags : ∀ m : Mapping, (Value.mapping m).hasNaN = false →
      ∀ e ∈ (s.flags (.ofMapping m)).entries, e.2 ≠ .float .nan := fun m hm e he => by
    obtain ⟨-, w, hw, hx⟩ := mem_of_get?_flags (Table.get?_of_mem he)
    obtain ⟨⟨k, u⟩, hmem, hu⟩ := List.mem_filterMap.1 hw
    have hnan : w.hasNaN = false := by
      simp only at hu
      split at hu
      next => cases hu; exact Value.hasNaN_of_mem hm _ hmem
      next => cases hu
    exact FlagValue.ne_nan_of_ofValue hx hnan
  rw [← Value.hasNaN_untagged] at hv
  unfold readOpen at h
  split at h
  next m hm =>
    rw [hm] at hv
    split at h
    · cases h
    · exact ⟨_, (Except.ok.inj h).symm, hflags m hv⟩
  next => exact ⟨[], (Except.ok.inj h).symm, fun _ he => absurd he List.not_mem_nil⟩
  next => cases h

namespace GenericSection

variable {g : GenericSection}

theorem reads_fields (g : GenericSection) : shape.Reads g.fields where
  nodup := by
    show ["run-before", "run-after"].Nodup
    decide
  names := by simp [fields, shape, Shape.fieldNames, Shape.names]
  passes := by
    have htexts := fun items => Reader.fault?_of_ok (Reader.texts_written items)
    simp [fields, shape, FieldChecks.Passes, List.lookup_cons, htexts]
  tagless := by simp [fields, Value.hasTag_texts]

theorem read_toValue (hflags : shape.Writes g.flags) : read g.toValue = .ok g := by
  have hfields := g.reads_fields
  have hget := Shape.get?_record hfields hflags
  have hread := Shape.readOpen_record ofEntries hfields hflags
  simp only [fields, List.forall_mem_cons] at hget
  obtain ⟨hbefore, hafter, -⟩ := hget
  rw [read, toValue, hread, ofEntries, Shape.flags_record hfields hflags]
  simp only [fields, Entries.read_of_ok hbefore (Reader.texts_written _),
    Entries.read_of_ok hafter (Reader.texts_written _)]

theorem beq_self (h : ∀ e ∈ g.flags.entries, e.2 ≠ .float .nan) : (g == g) = true := by
  show (g.runBefore == g.runBefore && (g.runAfter == g.runAfter && g.flags == g.flags)) = true
  rw [beq_self_eq_true, beq_self_eq_true, Table.beq_self h]
  rfl

end GenericSection

namespace Timing

variable {t : Timing}

theorem hasTag_fields (t : Timing) : ∀ e ∈ t.fields, e.2.hasTag = false := by
  have hwait : (Written.wait t.lockWait?).hasTag = false := by
    rcases t.lockWait? with _ | d <;> rfl
  simp [fields, Value.hasTag_texts, hwait, Value.hasTag]

theorem ofEntries_eq (hget : ∀ e ∈ t.fields, es.get? e.1 = some e.2)
    (hwait : Reader.duration (Written.wait t.lockWait?) = .ok t.lockWait?) : ofEntries es = t := by
  simp only [fields, List.forall_mem_cons] at hget
  obtain ⟨hschedule, hpermission, hlog, hpriority, hmode, hlock, -⟩ := hget
  rw [ofEntries, Entries.read_of_ok hschedule (Reader.texts_written _),
    Entries.read_of_ok hpermission (Reader.text_string _),
    Entries.read_of_ok hlog (Reader.text_string _),
    Entries.read_of_ok hpriority (Reader.text_string _),
    Entries.read_of_ok hmode (Reader.text_string _), Entries.read_of_ok hlock hwait]

end Timing

namespace RetentionSection

variable {r : RetentionSection}

theorem reads_fields
    (hwait : Reader.duration (Written.wait r.timing.lockWait?) = .ok r.timing.lockWait?) :
    shape.Reads r.fields where
  nodup := by
    show ["before-backup", "after-backup", "path", "tag", "schedule", "schedule-permission",
      "schedule-log", "schedule-priority", "schedule-lock-mode", "schedule-lock-wait"].Nodup
    decide
  names := by simp [fields, shape, Timing.fields, Timing.checks, Shape.fieldNames, Shape.names]
  passes := by
    have htexts := fun items => Reader.fault?_of_ok (Reader.texts_written items)
    have htext := fun s => Reader.fault?_of_ok (Reader.text_string s)
    have hswitch := fun b => Reader.fault?_of_ok (Reader.switch_bool b)
    have hchoice := fun c => Reader.fault?_of_ok (Choice.read_toValue c)
    simp [fields, shape, Timing.fields, Timing.checks, FieldChecks.Passes, List.lookup_cons, htexts,
      htext, hswitch, hchoice, Reader.fault?_of_ok hwait]
  tagless := by
    rw [fields, List.forall_mem_append]
    exact ⟨by simp [Choice.hasTag_toValue, Value.hasTag], r.timing.hasTag_fields⟩

theorem read_toValue (hflags : shape.Writes r.flags)
    (hwait : Reader.duration (Written.wait r.timing.lockWait?) = .ok r.timing.lockWait?) :
    read r.toValue = .ok r := by
  have hfields := reads_fields hwait
  have hget := Shape.get?_record hfields hflags
  have hread := Shape.readOpen_record ofEntries hfields hflags
  rw [fields, List.forall_mem_append, ← fields] at hget
  obtain ⟨hown, htiming⟩ := hget
  simp only [List.forall_mem_cons] at hown
  obtain ⟨hbefore, hafter, hpath, htag, -⟩ := hown
  rw [read, toValue, hread, ofEntries, Timing.ofEntries_eq htiming hwait,
    Shape.flags_record hfields hflags, Entries.read_of_ok hbefore (Reader.switch_bool _),
    Entries.read_of_ok hafter (Reader.switch_bool _),
    Entries.read_of_ok hpath (Choice.read_toValue _),
    Entries.read_of_ok htag (Choice.read_toValue _)]

theorem beq_self (h : ∀ e ∈ r.flags.entries, e.2 ≠ .float .nan) : (r == r) = true := by
  show (_ == _ && (_ == _ && (_ == _ && (_ == _ && (_ == _ && r.flags == r.flags))))) = true
  simp only [beq_self_eq_true, Table.beq_self h, Bool.and_true]

end RetentionSection

/-- A section that is read and written is read as the same section again. -/
theorem sections_read_back :
    (∀ v g, v.hasNaN = false → GenericSection.read v = .ok g →
        GenericSection.read g.toValue = .ok g ∧ (g == g) = true)
      ∧ (∀ v r, v.hasNaN = false → RetentionSection.read v = .ok r →
          (∀ d, r.timing.lockWait? = some d →
            ∃ s < 2 ^ 53, d = ⟨s * Duration.nanosecondsPerSecond⟩) →
          RetentionSection.read r.toValue = .ok r ∧ (r == r) = true) := by
  constructor
  · intro v g hv hread
    obtain ⟨es, rfl, hnan⟩ := Shape.flags_ne_nan_of_readOpen hread hv
    exact ⟨GenericSection.read_toValue (Shape.writes_flags _ es), GenericSection.beq_self hnan⟩
  · intro v r hv hread hwait
    obtain ⟨es, rfl, hnan⟩ := Shape.flags_ne_nan_of_readOpen hread hv
    exact ⟨RetentionSection.read_toValue (Shape.writes_flags _ es) (Reader.duration_written hwait),
      RetentionSection.beq_self hnan⟩

/-- Texts and choices in their short forms, and an integer that is kept as its digits. -/
theorem sections_read_back_shortForms :
    let v := Value.mapping [
      (.string "run-before", .string "date"),
      (.string "limit", .number (.int 18446744073709551615)),
      (.string "quiet", .null)]
    let g : GenericSection :=
      ⟨["date"], [], Table.ofList [("limit", .text "18446744073709551615"), ("quiet", .text "")]⟩
    let w := Value.mapping [
      (.string "path", .bool true),
      (.string "tag", .string "daily"),
      (.string "schedule-lock-wait", .string "1h30m"),
      (.string "keep-last", .number (.int 3))]
    let r : RetentionSection :=
      ⟨false, false, .fromBackup, .values ["daily"],
        { Timing.none with lockWait? := some ⟨5400 * Duration.nanosecondsPerSecond⟩ },
        Table.ofList [("keep-last", .integer 3)]⟩
    (GenericSection.read v = .ok g ∧ GenericSection.read g.toValue = .ok g ∧ (g == g) = true)
      ∧ RetentionSection.read w = .ok r ∧ RetentionSection.read r.toValue = .ok r
        ∧ (r == r) = true := by
  intro v g w r
  obtain ⟨hgeneric, hretention⟩ := sections_read_back
  constructor
  · have hread : GenericSection.read v = .ok g := rfl
    exact ⟨hread, hgeneric v g rfl hread⟩
  · have hread : RetentionSection.read w = .ok r := by decide +kernel
    refine ⟨hread, hretention w r rfl hread ?_⟩
    rintro _ ⟨⟩
    exact ⟨5400, by decide, rfl⟩

end BackupProfiles
