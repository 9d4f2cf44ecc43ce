import BackupProfiles.Proofs.Path.Written

/-!
# Cleaned paths in normal form

Here a written path is what it says and not how it is cleaned: `Path.components` takes it apart at
its separators, `Path.IsNormal` says which components may stand where, and `Path.place` follows them
from a folder. Cleaning brings every path into normal form and does not change where it leads
(`Path.cleaned_normal`). That it leads to the same place is an invariant of the steps that are done
(`Path.foldl_lead_advance`), which needs that no step up is among them when the path is absolute.
-/

namespace BackupProfiles

namespace Path

/-- What stands between the separators of a written path. -/
def components (s : String) : List String := (Text.split '/' s).filter (· ≠ "")

/-- A path as short as it can be written: `.` for the place itself, or no `.` at all; and steps up
only in front of a relative path. -/
structure IsNormal (s : String) : Prop where
  stays : s = "." ∨ "." ∉ components s
  leadsUp : ∃ (ups : Nat) (names : List String),
    components s = List.replicate ups ".." ++ names ∧ ".." ∉ names ∧
      (isAbsoluteText s = true → ups = 0)
  joined : s = (if isAbsoluteText s then "/" else "") ++ Text.join '/' (components s)

/-- Where a component leads from a folder, which is given by the names on the way from the root. -/
def follow (here : List String) (component : String) : List String :=
  if component = "." then here
  else if component = ".." then here.dropLast
  else here ++ [component]

/-- The place a written path leads to from a folder. -/
def place (here : List String) (s : String) : List String :=
  (components s).foldl follow (if isAbsoluteText s then [] else here)

end Path

/-- Where a step leads from a folder. -/
def Step.lead (here : List String) : Step → List String
  | .up => here.dropLast
  | .into name => here ++ [name]

namespace Path

variable {absolute : Bool} {p : Path} {done : List Step} {here : List String}

section Places

/-- The components lead where the steps they stand for lead. -/
theorem foldl_follow (parts : List (List Char)) (here : List String) :
    ((parts.map String.ofList).filter (· ≠ "")).foldl follow here =
      (parts.filterMap step?).foldl Step.lead here := by
  induction parts generalizing here with
  | nil => rfl
  | cons part rest ih =>
    have hempty : String.ofList part = String.ofList [] ↔ part = [] := String.ofList_inj
    have hdot : String.ofList part = String.ofList ['.'] ↔ part = ['.'] := String.ofList_inj
    have hup : String.ofList part = String.ofList ['.', '.'] ↔ part = ['.', '.'] :=
      String.ofList_inj
    rw [List.map_cons, List.filter_cons, List.filterMap_cons, step?]
    by_cases he : part = []
    · simpa [he] using ih here
    · have hkept : decide (String.ofList part ≠ "") = true := by simpa [hempty] using he
      rw [if_pos hkept, List.foldl_cons, ih, follow]
      simp only [hdot, hup, he, false_or]
      split
      · rfl
      · split <;> rfl

theorem place_eq (here : List String) (s : String) :
    place here s =
      (ofText s).steps.foldl Step.lead (if (ofText s).absolute then [] else here) :=
  foldl_follow (Text.splitChars '/' s.toList) _

/-- Cleaning one more step leads where the step leads. -/
theorem foldl_lead_advance (h : CleanSteps absolute done) (hhere : absolute = true → here = [])
    (s : Step) :
    (advance absolute done s).reverse.foldl Step.lead here =
      Step.lead (done.reverse.foldl Step.lead here) s := by
  have hpush : ∀ t : Step, (t :: done).reverse.foldl Step.lead here =
      Step.lead (done.reverse.foldl Step.lead here) t := by
    intro t
    rw [List.reverse_cons, List.foldl_append]
    rfl
  obtain ⟨names, ups, rfl, hups⟩ := h
  rcases s with _ | name
  · rcases names with _ | ⟨name, names⟩
    · cases absolute with
      | true =>
        obtain rfl := hups rfl
        obtain rfl := hhere rfl
        rfl
      | false =>
        rcases ups with _ | ups
        · exact hpush .up
        · exact hpush .up
    · -- a step up takes the last folder away
      rw [List.map_cons, List.cons_append, List.reverse_cons, List.foldl_append]
      exact (List.dropLast_concat).symm
  · exact hpush (.into name)

theorem foldl_lead_advanceAll (hhere : absolute = true → here = []) (steps : List Step) :
    (advanceAll absolute [] steps).reverse.foldl Step.lead here = steps.foldl Step.lead here := by
  have hfrom : ∀ (steps done : List Step), CleanSteps absolute done →
      (advanceAll absolute done steps).reverse.foldl Step.lead here =
        steps.foldl Step.lead (done.reverse.foldl Step.lead here) := by
    intro steps
    induction steps with
    | nil => exact fun done _ => rfl
    | cons s rest ih =>
      intro done h
      rw [List.foldl_cons, ← foldl_lead_advance h hhere s]
      exact ih _ (cleanSteps_advance h s)
  exact hfrom steps [] ⟨[], 0, rfl, fun _ => rfl⟩

/-- Cleaning a path does not change where it leads. -/
theorem foldl_lead_clean (p : Path) (here : List String) :
    p.clean.steps.foldl Step.lead (if p.absolute then [] else here) =
      p.steps.foldl Step.lead (if p.absolute then [] else here) :=
  foldl_lead_advanceAll (fun h => if_pos h) p.steps

end Places

section Texts

variable {steps : List Step}

theorem components_steps (h : ∀ s ∈ steps, s.IsProper) :
    components (Text.join '/' (steps.map stepText)) = steps.map stepText := by
  by_cases hne : steps = []
  · rw [hne]
    rfl
  · have hparts : Text.split '/' (Text.join '/' (steps.map stepText)) = steps.map stepText := by
      rw [Text.split, components_join h hne, List.map_map]
      exact List.map_congr_left fun s _ => String.ofList_toList
    rw [components, hparts, List.filter_eq_self]
    intro component hc
    obtain ⟨s, hs, rfl⟩ := List.mem_map.1 hc
    exact decide_eq_true (h s hs).written

theorem components_root (s : String) : components ("/" ++ s) = components s := by
  have hroot : Text.split '/' ("/" ++ s) = "" :: Text.split '/' s := by
    rw [Text.split, Text.split, String.toList_append]
    rfl
  rw [components, hroot]
  rfl

/-- The text of a path says its steps, unless there are none to say. -/
theorem text_cases (h : ∀ s ∈ p.steps, s.IsProper) :
    p.text = "." ∨
      p.text = (if p.absolute then "/" else "") ++ Text.join '/' (p.steps.map stepText) ∧
        components p.text = p.steps.map stepText := by
  obtain ⟨absolute, steps⟩ := p
  have hsteps := components_steps h
  cases absolute with
  | true => exact Or.inr ⟨rfl, (components_root _).trans hsteps⟩
  | false =>
    by_cases hne : steps = []
    · rw [hne]
      exact Or.inl rfl
    · have htext : text ⟨false, steps⟩ = Text.join '/' (steps.map stepText) := by simp [text, hne]
      exact Or.inr ⟨by simp [htext], by rw [htext, hsteps]⟩

theorem proper_cleaned (s : String) : ∀ t ∈ (ofText s).clean.steps, t.IsProper :=
  fun t ht => proper_ofText s t (mem_steps_clean ht)

theorem ofText_cleaned (s : String) : ofText (cleaned s) = (ofText s).clean :=
  ofText_text (proper_cleaned s)

/-- No step is written as `.`, and none into a folder as `..`. -/
theorem dot_notMem (h : ∀ s ∈ steps, s.IsProper) : "." ∉ steps.map stepText := by
  intro hdot
  obtain ⟨s, hs, htext⟩ := List.mem_map.1 hdot
  have hstep := (h s hs).step
  rw [htext] at hstep
  cases hstep

theorem up_ne_of_proper {name : String} (h : (Step.into name).IsProper) : name ≠ ".." := by
  rintro rfl
  have hstep : some Step.up = some (.into "..") := h.step
  cases hstep

theorem isNormal_cleaned (s : String) : IsNormal (cleaned s) := by
  have hproper := proper_cleaned s
  have habsolute : isAbsoluteText (cleaned s) = (ofText s).absolute := isAbsoluteText_text hproper
  obtain ⟨names, ups, hclean, hups⟩ := cleanSteps_advanceAll (ofText s).absolute (ofText s).steps
  have hsteps : (ofText s).clean.steps = List.replicate ups .up ++ names.reverse.map .into := by
    rw [clean_eq, hclean, List.reverse_append, List.reverse_replicate, List.map_reverse]
  rcases text_cases hproper with hdot | ⟨htext, hcomponents⟩
  · have hdot : cleaned s = "." := hdot
    rw [hdot]
    exact ⟨Or.inl rfl, ⟨0, ["."], by decide, by decide, fun _ => rfl⟩, by decide⟩
  · have hcomponents : components (cleaned s) = (ofText s).clean.steps.map stepText := hcomponents
    refine ⟨Or.inr ?_, ⟨ups, names.reverse, ?_, ?_, ?_⟩, ?_⟩
    · rw [hcomponents]
      exact dot_notMem hproper
    · rw [hcomponents, hsteps, List.map_append, List.map_replicate, List.map_map]
      exact congrArg _ (List.map_id names.reverse)
    · intro hup
      refine up_ne_of_proper (hproper (.into "..") ?_) rfl
      rw [hsteps]
      exact List.mem_append_right _ (List.mem_map_of_mem hup)
    · rwa [habsolute]
    · rw [habsolute, hcomponents]
      exact htext

/-- Two written paths one after the other are the second one seen from the first. -/
theorem ofText_joinText (a b : String) : ofText (joinText a b) = ofText a ++ ofText b := by
  unfold joinText
  by_cases hb : isAbsoluteText b = true
  · rw [hb, append_of_absolute hb]
    rfl
  rw [Bool.not_eq_true] at hb
  have hrelative : (ofText b).absolute = false := hb
  rw [hb, Bool.false_or, append_of_relative hrelative]
  by_cases ha : a = ""
  · rw [ha, if_pos (by decide)]
    exact congrArg (fun absolute => (⟨absolute, (ofText b).steps⟩ : Path)) hrelative
  rw [if_neg (by simpa using ha)]
  have hhead : ∀ rest, (a.toList ++ rest).head? = a.toList.head? := fun rest =>
    List.head?_append_of_ne_nil _ (by simpa using ha)
  split
  · -- a separator at the end of the first path opens a component that is no step
    rename_i hlast
    obtain ⟨cs, hcs⟩ := List.getLast?_eq_some_iff.1 (beq_iff_eq.1 hlast)
    have hlist : (a ++ b).toList = cs ++ '/' :: b.toList := by simp [hcs]
    have hsteps : (ofText a).steps = (Text.splitChars '/' cs).filterMap step? := by
      rw [ofText, hcs, Text.splitChars_append, List.filterMap_append]
      exact List.append_nil _
    have habsolute : (ofText (a ++ b)).absolute = (ofText a).absolute := by
      rw [ofText, ofText, String.toList_append, hhead]
    rw [hsteps, ← habsolute, ofText, hlist, Text.splitChars_append, List.filterMap_append]
    rfl
  · have hlist : (a ++ "/" ++ b).toList = a.toList ++ '/' :: b.toList := by simp
    rw [ofText, hlist, hhead, Text.splitChars_append, List.filterMap_append]
    rfl

/-- Cleaning brings a path into normal form, keeps it absolute or relative, and does not change the
place it leads to from any folder. What is clean stays as it is, also in front of another path. -/
theorem cleaned_normal (s : String) :
    IsNormal (cleaned s) ∧ isAbsoluteText (cleaned s) = isAbsoluteText s ∧
      cleaned (cleaned s) = cleaned s ∧ (∀ here, place here (cleaned s) = place here s) ∧
      ∀ t, cleaned (joinText s t) = cleaned (joinText (cleaned s) t) := by
  refine ⟨isNormal_cleaned s, ?_, ?_, fun here => ?_, fun t => ?_⟩
  · exact isAbsoluteText_text (proper_cleaned s)
  · rw [cleaned, ofText_cleaned, clean_clean]
    rfl
  · rw [place_eq, place_eq, ofText_cleaned]
    exact foldl_lead_clean (ofText s) here
  · rw [cleaned, ofText_joinText, cleaned, ofText_joinText, ofText_cleaned, clean_append_clean]

example : cleaned "../you/./a//../b" = "../you/b" ∧ cleaned "/../a/.." = "/" ∧
    place ["home", "me"] "../you/./a//../b" = ["home", "you", "b"] := by decide

end Texts

end Path

end BackupProfiles
