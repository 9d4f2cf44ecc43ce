import BackupProfiles.Proofs.Path.Clean
import BackupProfiles.Proofs.Text.Split
import Mathlib.Data.List.Basic

/-!
# Reading back what is written

A step that comes from a text is proper: its component holds no separator and stands for it. A path
of proper steps is the path of its text (`Path.ofText_text`), so its text is absolute if the path
is, and starts with the home sign only if the first step goes into a folder of that name.
-/

namespace BackupProfiles

/-- The component that a step is written as holds no separator and stands for the step. -/
structure Step.IsProper (s : Step) : Prop where
  step : Path.step? (Path.stepText s).toList = some s
  whole : '/' ∉ (Path.stepText s).toList

theorem Step.IsProper.written {s : Step} (h : s.IsProper) : s.IsWritten := by
  intro hempty
  have hstep := h.step
  rw [hempty] at hstep
  cases hstep

namespace Path

variable {p : Path} {s : Step}

theorem stepText_of_step? {component : List Char} (h : step? component = some s) :
    (stepText s).toList = component := by
  unfold step? at h
  split_ifs at h with hidle hup
  · cases h
    rw [hup]
    rfl
  · cases h
    exact String.toList_ofList

theorem proper_ofText (text : String) : ∀ s ∈ (ofText text).steps, s.IsProper := by
  intro s hs
  obtain ⟨component, hc, hstep⟩ := List.mem_filterMap.1 hs
  have htext := stepText_of_step? hstep
  exact ⟨htext ▸ hstep, htext ▸ Text.notMem_of_mem_splitChars hc⟩

theorem components_join {steps : List Step} (h : ∀ s ∈ steps, s.IsProper) (hne : steps ≠ []) :
    Text.splitChars '/' (Text.join '/' (steps.map stepText)).toList =
      steps.map fun s => (stepText s).toList := by
  rw [Text.join, String.toList_ofList, List.map_map]
  refine Text.splitChars_joinChars (by simpa using hne) fun part hpart => ?_
  obtain ⟨s, hs, rfl⟩ := List.mem_map.1 hpart
  exact (h s hs).whole

/-- Proper steps are read back from their components. -/
theorem steps_join {steps : List Step} (h : ∀ s ∈ steps, s.IsProper) :
    (Text.splitChars '/' (Text.join '/' (steps.map stepText)).toList).filterMap step? = steps := by
  by_cases hne : steps = []
  · rw [hne]
    rfl
  · rw [components_join h hne, List.filterMap_map]
    exact (List.filterMap_congr fun s hs => (h s hs).step).trans List.filterMap_some

theorem head?_join {steps : List Step} (h : ∀ s ∈ steps, s.IsProper) :
    (Text.join '/' (steps.map stepText)).toList.head? ≠ some '/' := by
  intro hhead
  rcases steps with _ | ⟨s, rest⟩
  · cases hhead
  · have hparts := components_join h (List.cons_ne_nil s rest)
    obtain ⟨cs, hcs⟩ := List.head?_eq_some_iff.1 hhead
    -- a separator in front would make the first component empty
    rw [hcs, Text.splitChars, if_pos rfl, List.map_cons] at hparts
    have hstep := (h s List.mem_cons_self).step
    rw [← (List.cons.inj hparts).1] at hstep
    cases hstep

/-- A path of proper steps is the path of its text. -/
theorem ofText_text (h : ∀ s ∈ p.steps, s.IsProper) : ofText p.text = p := by
  obtain ⟨absolute, steps⟩ := p
  cases absolute with
  | true =>
    have htext : (text ⟨true, steps⟩).toList =
        '/' :: (Text.join '/' (steps.map stepText)).toList := by
      rw [text, if_pos rfl, String.toList_append]
      rfl
    rw [ofText, htext, Text.splitChars, if_pos rfl, List.filterMap_cons_none rfl, steps_join h]
    rfl
  | false =>
    by_cases hne : steps = []
    · rw [hne]
      decide
    · have htext : text ⟨false, steps⟩ = Text.join '/' (steps.map stepText) := by
        simp [text, hne]
      rw [ofText, htext, steps_join h]
      simpa using head?_join h

theorem isAbsoluteText_text (h : ∀ s ∈ p.steps, s.IsProper) :
    isAbsoluteText p.text = p.absolute := by
  rw [isAbsoluteText, ofText_text h]

section Home

variable {t : String}

theorem isAbsoluteText_iff : isAbsoluteText t = true ↔ ∃ cs, t.toList = '/' :: cs := by
  show (t.toList.head? == some '/') = true ↔ _
  rw [beq_iff_eq, List.head?_eq_some_iff]

theorem afterHome?_of_absolute (h : isAbsoluteText t = true) : afterHome? t = none := by
  obtain ⟨cs, hcs⟩ := isAbsoluteText_iff.1 h
  rw [afterHome?, hcs]
  rfl

theorem of_afterHome? {rest : String} (h : afterHome? t = some rest) :
    t = "~" ∨ "~/".toList <+: t.toList := by
  unfold afterHome? at h
  split at h
  · rename_i ht
    exact Or.inl (String.toList_inj.1 ht)
  · rename_i ht
    rw [ht]
    exact Or.inr (List.prefix_append ['~', '/'] _)
  · cases h

/-- The home sign is the first component of a text. -/
theorem afterHome?_of_steps (h : (ofText t).steps.head? ≠ some (.into "~")) :
    afterHome? t = none := by
  unfold afterHome?
  split
  · rename_i ht
    rw [ofText, ht] at h
    exact absurd rfl h
  · rename_i rest ht
    have hsplit : Text.splitChars '/' ('~' :: '/' :: rest) = ['~'] :: Text.splitChars '/' rest :=
      Text.splitChars_append_sep (by decide : '/' ∉ ['~']) rest
    rw [ofText, ht, hsplit] at h
    exact absurd rfl h
  · rfl

theorem afterHome?_text (h : ∀ s ∈ p.steps, s.IsProper)
    (hhead : p.steps.head? ≠ some (.into "~")) : afterHome? p.text = none :=
  afterHome?_of_steps (by rwa [ofText_text h])

end Home

end Path

end BackupProfiles
