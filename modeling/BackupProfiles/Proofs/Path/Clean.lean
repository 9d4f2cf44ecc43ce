import BackupProfiles.Path.Text

/-!
# Cleaned paths

Cleaning a path only leaves out steps (`Path.mem_steps_clean`). What it leaves are steps up, unless
the path is absolute, and then steps into folders (`Path.CleanSteps`), and such steps stay as they
are. So cleaning twice is cleaning once (`Path.clean_clean`), and what a path is seen from may be
cleaned before (`Path.clean_append_clean`). A path whose steps are all written as something is never
written as nothing (`Path.text_ne_empty`).
-/

namespace BackupProfiles

/-- Whether the text of a step is not empty. -/
def Step.IsWritten (s : Step) : Prop := Path.stepText s ≠ ""

namespace Path

variable {absolute : Bool} {a b : Path} {done steps : List Step}

theorem append_of_relative (h : b.absolute = false) :
    a ++ b = ⟨a.absolute, a.steps ++ b.steps⟩ := by
  show append a b = _
  rw [append, if_neg (by simp [h])]

theorem append_of_absolute (h : b.absolute = true) : a ++ b = b := by
  show append a b = b
  rw [append, if_pos h]

theorem mem_steps_append {a b : Path} {t : Step} (h : t ∈ (a ++ b).steps) :
    t ∈ a.steps ∨ t ∈ b.steps := by
  change t ∈ (append a b).steps at h
  unfold append at h
  split at h
  · exact Or.inr h
  · exact List.mem_append.1 h

theorem mem_advance {absolute : Bool} {done : List Step} {s t : Step}
    (h : t ∈ advance absolute done s) : t ∈ done ∨ t = s := by
  unfold advance at h
  split at h
  · exact (List.mem_cons.1 h).symm
  · exact Or.inl (List.mem_cons_of_mem _ h)
  · split at h
    · exact Or.inl h
    · exact (List.mem_cons.1 h).symm

/-- Cleaning leaves out steps and makes none up. -/
theorem mem_steps_clean {p : Path} {t : Step} (h : t ∈ p.clean.steps) : t ∈ p.steps := by
  have hfold : ∀ (steps done : List Step), t ∈ steps.foldl (advance p.absolute) done →
      t ∈ done ∨ t ∈ steps := by
    intro steps
    induction steps with
    | nil => exact fun done h => Or.inl h
    | cons s rest ih =>
      intro done h
      rcases ih _ h with h | h
      · rcases mem_advance h with h | rfl
        · exact Or.inl h
        · exact Or.inr List.mem_cons_self
      · exact Or.inr (List.mem_cons_of_mem _ h)
  simpa using hfold p.steps [] (List.mem_reverse.1 h)

/-- Cleaning from steps that are already clean, the last first. -/
def advanceAll (absolute : Bool) (done steps : List Step) : List Step :=
  steps.foldl (advance absolute) done

theorem clean_eq (p : Path) : p.clean = ⟨p.absolute, (advanceAll p.absolute [] p.steps).reverse⟩ :=
  rfl

theorem advanceAll_append (absolute : Bool) (done steps others : List Step) :
    advanceAll absolute done (steps ++ others) =
      advanceAll absolute (advanceAll absolute done steps) others :=
  List.foldl_append

theorem advanceAll_into (absolute : Bool) (done : List Step) (names : List String) :
    advanceAll absolute done (names.map .into) = (names.map .into).reverse ++ done := by
  induction names generalizing done with
  | nil => rfl
  | cons name rest ih =>
    show advanceAll absolute (.into name :: done) (rest.map .into) = _
    rw [ih, List.map_cons, List.reverse_cons, List.append_assoc]
    rfl

/-- Steps into folders after steps up, the last first. An absolute path does not lead up. -/
def CleanSteps (absolute : Bool) (done : List Step) : Prop :=
  ∃ (names : List String) (ups : Nat),
    done = names.map .into ++ List.replicate ups .up ∧ (absolute = true → ups = 0)

theorem cleanSteps_advance (h : CleanSteps absolute done) (s : Step) :
    CleanSteps absolute (advance absolute done s) := by
  obtain ⟨names, ups, rfl, hups⟩ := h
  rcases s with _ | name
  · rcases names with _ | ⟨name, names⟩
    · cases absolute with
      | true =>
        -- the root is its own parent
        obtain rfl := hups rfl
        exact ⟨[], 0, rfl, fun _ => rfl⟩
      | false =>
        refine ⟨[], ups + 1, ?_, nofun⟩
        rcases ups with _ | ups <;> rfl
    · exact ⟨names, ups, rfl, hups⟩
  · exact ⟨name :: names, ups, rfl, hups⟩

theorem cleanSteps_advanceAll (absolute : Bool) (steps : List Step) :
    CleanSteps absolute (advanceAll absolute [] steps) := by
  have hfrom : ∀ (steps done : List Step), CleanSteps absolute done →
      CleanSteps absolute (advanceAll absolute done steps) := by
    intro steps
    induction steps with
    | nil => exact fun done h => h
    | cons s rest ih => exact fun done h => ih _ (cleanSteps_advance h s)
  exact hfrom steps [] ⟨[], 0, rfl, fun _ => rfl⟩

theorem advanceAll_replicate_up (ups : Nat) :
    advanceAll false [] (List.replicate ups .up) = List.replicate ups .up := by
  induction ups with
  | zero => rfl
  | succ ups ih =>
    rw [List.replicate_succ', advanceAll_append, ih, ← List.replicate_succ', List.replicate_succ]
    rcases ups with _ | ups <;> rfl

/-- Cleaning leaves clean steps as they are. -/
theorem CleanSteps.advanceAll_eq (h : CleanSteps absolute done) :
    advanceAll absolute [] done.reverse = done := by
  obtain ⟨names, ups, rfl, hups⟩ := h
  have hups : advanceAll absolute [] (List.replicate ups .up) = List.replicate ups .up := by
    cases absolute with
    | true => rw [hups rfl]; rfl
    | false => exact advanceAll_replicate_up ups
  rw [List.reverse_append, List.reverse_replicate, ← List.map_reverse, advanceAll_append, hups,
    advanceAll_into, ← List.map_reverse, List.reverse_reverse]

theorem clean_clean (p : Path) : p.clean.clean = p.clean := by
  have hsteps := (cleanSteps_advanceAll p.absolute p.steps).advanceAll_eq
  rw [clean_eq p, clean_eq]
  exact congrArg (fun done : List Step => (⟨p.absolute, done.reverse⟩ : Path)) hsteps

/-- A place may be cleaned before a path is seen from it. -/
theorem clean_append_clean (a b : Path) : (a.clean ++ b).clean = (a ++ b).clean := by
  rcases hb : b.absolute with _ | _
  · have hsteps := (cleanSteps_advanceAll a.absolute a.steps).advanceAll_eq
    rw [append_of_relative hb, append_of_relative hb, clean_eq a, clean_eq, clean_eq]
    simp only [advanceAll_append, hsteps]
  · rw [append_of_absolute hb, append_of_absolute hb]

/-- The text of a path whose steps name something is not empty. -/
theorem text_ne_empty {p : Path} (h : ∀ s ∈ p.steps, s.IsWritten) : p.text ≠ "" := by
  unfold text
  rw [ne_eq, ← String.toList_inj]
  simp only []
  split
  · simp
  · rcases hp : p.steps with _ | ⟨s, rest⟩
    · simp
    · have hs : (stepText s).toList ≠ [] := by
        rw [ne_eq, String.toList_eq_nil_iff]
        exact h s (by rw [hp]; exact List.mem_cons_self)
      rcases rest with _ | ⟨t, rest⟩
      · simpa [Text.join, Text.joinChars] using hs
      · simp [Text.join, Text.joinChars]

end Path

end BackupProfiles
