import BackupProfiles.Proofs.Reorder.Reading
import BackupProfiles.Profile.Basic

/-!
# Reading reordered sections

The fields of every section are read steadily, so all sections are read indifferently, and so is the
body of a profile with its sections (`Profile.indifferent_readBody`).
-/

namespace BackupProfiles

open Reader

variable {es other : Entries} {g : FieldChecks}

theorem Timing.ofEntries_alike (h : es.Alike other) : ofEntries es = ofEntries other := by
  simp only [ofEntries, h.read steady_texts.indifferent, h.read steady_text.indifferent,
    h.read steady_duration.indifferent]

theorem Timing.indifferent_checks : checks.Indifferent := by
  simp only [FieldChecks.Indifferent, checks, List.forall_mem_cons]
  and_intros <;> first
    | exact steady_text.indifferent.fault?
    | exact steady_texts.indifferent.fault?
    | exact steady_duration.indifferent.fault?
    | simp

theorem Hooks.ofEntries_alike (h : es.Alike other) : ofEntries es = ofEntries other := by
  simp only [ofEntries, h.read Call.steady_readSome.indifferent]

theorem Hooks.indifferent_checks : checks.Indifferent := by
  simp only [FieldChecks.Indifferent, checks, List.forall_mem_cons]
  and_intros <;> first
    | exact Call.steady_readSome.indifferent.fault?
    | simp

theorem BackupSection.indifferent_read : read.Indifferent := by
  refine Shape.indifferent_readOpen ?_ fun h => ?_
  · simp only [Shape.Indifferent, shape, List.forall_mem_cons]
    refine ⟨?_, Timing.indifferent_checks, Hooks.indifferent_checks, by simp⟩
    simp only [FieldChecks.Indifferent, List.forall_mem_cons]
    and_intros <;> first
      | exact steady_switch.indifferent.fault?
      | exact steady_texts.indifferent.fault?
      | simp
  · simp only [ofEntries, h.read steady_switch.indifferent, h.read steady_texts.indifferent,
      Timing.ofEntries_alike h, Hooks.ofEntries_alike h, h.flags]

theorem RetentionSection.indifferent_read : read.Indifferent := by
  refine Shape.indifferent_readOpen ?_ fun h => ?_
  · simp only [Shape.Indifferent, shape, List.forall_mem_cons]
    refine ⟨?_, Timing.indifferent_checks, by simp⟩
    simp only [FieldChecks.Indifferent, List.forall_mem_cons]
    and_intros <;> first
      | exact steady_switch.indifferent.fault?
      | exact steady_choice.indifferent.fault?
      | simp
  · simp only [ofEntries, h.read steady_switch.indifferent, h.read steady_choice.indifferent,
      Timing.ofEntries_alike h, h.flags]

theorem ScheduledSection.indifferent_read : read.Indifferent := by
  refine Shape.indifferent_readOpen ?_ fun h => ?_
  · simp only [Shape.Indifferent, shape, List.forall_mem_cons]
    exact ⟨by simp [FieldChecks.Indifferent], Timing.indifferent_checks, Hooks.indifferent_checks,
      by simp⟩
  · simp only [ofEntries, Timing.ofEntries_alike h, Hooks.ofEntries_alike h, h.flags]

theorem CopySection.indifferent_read : read.Indifferent := by
  refine Shape.indifferent_readOpen ?_ fun h => ?_
  · simp only [Shape.Indifferent, shape, List.forall_mem_cons]
    refine ⟨?_, Timing.indifferent_checks, Hooks.indifferent_checks, by simp⟩
    simp only [FieldChecks.Indifferent, List.forall_mem_cons]
    and_intros <;> first
      | exact steady_switch.indifferent.fault?
      | exact steady_secret.indifferent.fault?
      | exact steady_text.indifferent.fault?
      | simp
  · simp only [ofEntries, h.read steady_switch.indifferent, h.read steady_secret.indifferent,
      h.read steady_text.indifferent, Timing.ofEntries_alike h, Hooks.ofEntries_alike h, h.flags]

theorem InitSection.indifferent_read : read.Indifferent := by
  refine Shape.indifferent_readOpen ?_ fun h => ?_
  · simp only [Shape.Indifferent, shape, List.forall_mem_cons]
    refine ⟨?_, by simp⟩
    simp only [FieldChecks.Indifferent, List.forall_mem_cons]
    and_intros <;> first
      | exact steady_switch.indifferent.fault?
      | exact steady_secret.indifferent.fault?
      | exact steady_text.indifferent.fault?
      | simp
  · simp only [ofEntries, h.read steady_switch.indifferent, h.read steady_secret.indifferent,
      h.read steady_text.indifferent, h.flags]

theorem GenericSection.indifferent_read : read.Indifferent := by
  refine Shape.indifferent_readOpen ?_ fun h => ?_
  · simp only [Shape.Indifferent, shape, List.forall_mem_cons]
    refine ⟨?_, by simp⟩
    simp only [FieldChecks.Indifferent, List.forall_mem_cons]
    and_intros <;> first
      | exact steady_texts.indifferent.fault?
      | simp
  · simp only [ofEntries, h.read steady_texts.indifferent, h.flags]

theorem Profile.indifferent_readBody : readBody.Indifferent := by
  refine Shape.indifferent_readOpen ?_ fun h => ?_
  · simp only [Shape.Indifferent, shape, List.forall_mem_cons]
    refine ⟨?_, by simp⟩
    simp only [FieldChecks.Indifferent, List.forall_mem_cons]
    and_intros <;> first
      | exact steady_text.indifferent.fault?
      | exact steady_switch.indifferent.fault?
      | exact steady_texts.indifferent.fault?
      | exact steady_secret.indifferent.fault?
      | exact steady_verbosity.indifferent.fault?
      | exact steady_secret.table.fault?
      | exact BackupSection.indifferent_read.optional.fault?
      | exact RetentionSection.indifferent_read.optional.fault?
      | exact ScheduledSection.indifferent_read.optional.fault?
      | exact CopySection.indifferent_read.optional.fault?
      | exact InitSection.indifferent_read.optional.fault?
      | simp
  · simp only [ofEntries, h.read steady_text.indifferent, h.read steady_switch.indifferent,
      h.read steady_texts.indifferent, h.read steady_secret.indifferent,
      h.read steady_verbosity.indifferent, h.read steady_secret.table,
      h.read BackupSection.indifferent_read.optional,
      h.read RetentionSection.indifferent_read.optional,
      h.read ScheduledSection.indifferent_read.optional,
      h.read CopySection.indifferent_read.optional, h.read InitSection.indifferent_read.optional,
      h.flags]

end BackupProfiles
