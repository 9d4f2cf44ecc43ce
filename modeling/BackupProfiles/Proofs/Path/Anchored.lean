import BackupProfiles.Proofs.Path.Written

/-!
# Anchoring settings again

A setting that is anchored stays as it is, or is seen from the home folder, or from the root
(`Path.anchored_cases`). What is seen from an absolute place is absolute, so anchoring it again
changes nothing. What is seen from a relative root is relative, and is seen from the root once more:
it stays as it is exactly if the root leads as often up as into a folder, unless it comes to start
with the home sign (`Path.anchored_twice_iff`).
-/

namespace BackupProfiles

/-- How much deeper in the tree a step leads. -/
def Step.depth : Step → Int
  | .up => -1
  | .into _ => 1

namespace Path

/-- How much deeper in the tree steps lead: the folders they go into less those they leave. -/
def depth : List Step → Int
  | [] => 0
  | s :: rest => s.depth + depth rest

variable {absolute : Bool} {a b p : Path} {done mid steps : List Step}

section Advance

/-- A path that is cleaned on its own can be cleaned again in its place. -/
theorem advanceAll_cleaned (absolute : Bool) (done mid steps : List Step) :
    advanceAll absolute done (advanceAll false mid steps).reverse =
      advanceAll absolute (advanceAll absolute done mid.reverse) steps := by
  have hstep : ∀ (mid : List Step) (s : Step),
      advanceAll absolute done (advance false mid s).reverse =
        advance absolute (advanceAll absolute done mid.reverse) s := by
    intro mid s
    have hpush : ∀ t : Step, advanceAll absolute done (t :: mid).reverse =
        advance absolute (advanceAll absolute done mid.reverse) t := by
      intro t
      rw [List.reverse_cons, advanceAll_append]
      rfl
    rcases s with _ | name
    · rcases mid with _ | ⟨_ | name, mid⟩
      · exact hpush .up
      · exact hpush .up
      · -- a step up takes the last folder away
        rw [List.reverse_cons, advanceAll_append]
        rfl
    · exact hpush (.into name)
  induction steps generalizing mid with
  | nil => rfl
  | cons s rest ih => exact (ih _).trans (congrArg (advanceAll absolute · rest) (hstep mid s))

theorem depth_advance (done : List Step) (s : Step) :
    depth (advance false done s) = depth done + s.depth := by
  have hpush : ∀ t : Step, depth (t :: done) = depth done + t.depth := by
    intro t
    rw [depth, Int.add_comm]
  rcases s with _ | name
  · rcases done with _ | ⟨_ | name, done⟩
    · exact hpush .up
    · exact hpush .up
    · show depth done = 1 + depth done + -1
      omega
  · exact hpush (.into name)

theorem depth_advanceAll (done steps : List Step) :
    depth (advanceAll false done steps) = depth done + depth steps := by
  induction steps generalizing done with
  | nil => simp [advanceAll, depth]
  | cons s rest ih =>
    show depth (advanceAll false (advance false done s) rest) = _
    rw [ih, depth_advance, depth, Int.add_assoc]

theorem depth_append (steps others : List Step) :
    depth (steps ++ others) = depth steps + depth others := by
  induction steps with
  | nil => exact (Int.zero_add _).symm
  | cons s rest ih => rw [List.cons_append, depth, depth, ih, Int.add_assoc]

theorem depth_reverse (steps : List Step) : depth steps.reverse = depth steps := by
  induction steps with
  | nil => rfl
  | cons s rest ih =>
    have hlast : depth [s] = s.depth := Int.add_zero _
    rw [List.reverse_cons, depth_append, ih, hlast, depth, Int.add_comm]

theorem depth_into (names : List String) : depth (names.map .into) = names.length := by
  induction names with
  | nil => rfl
  | cons name rest ih =>
    rw [List.map_cons, depth, ih, Step.depth, List.length_cons]
    omega

theorem depth_up (ups : Nat) : depth (List.replicate ups .up) = -ups := by
  induction ups with
  | zero => rfl
  | succ ups ih =>
    rw [List.replicate_succ, depth, ih, Step.depth]
    omega

theorem advanceAll_up (absolute : Bool) (names : List String) (done : List Step) :
    advanceAll absolute (names.map .into ++ done) (List.replicate names.length .up) = done := by
  induction names with
  | nil => rfl
  | cons name rest ih => exact ih

/-- What leads up first goes on to do so. -/
theorem getLast?_advanceAll (h : done.getLast? = some .up) (steps : List Step) :
    (advanceAll false done steps).getLast? = some .up := by
  induction steps generalizing done with
  | nil => exact h
  | cons s rest ih =>
    refine ih ?_
    rcases s with _ | name
    · rcases done with _ | ⟨_ | name, done⟩
      · cases h
      · simpa [advance] using h
      · rcases done with _ | ⟨t, done⟩
        · cases h
        · simpa [advance] using h
    · rcases done with _ | ⟨t, done⟩
      · cases h
      · simpa [advance] using h

end Advance

section Anchored

variable {home? : Option String} {home root setting rest : String}

theorem absolute_append (h : a.absolute = true) : (a ++ b).absolute = true := by
  show (append a b).absolute = true
  unfold append
  split
  · assumption
  · exact h

theorem proper_clean_append (ha : ∀ s ∈ a.steps, s.IsProper) (hb : ∀ s ∈ b.steps, s.IsProper) :
    ∀ s ∈ (a ++ b).clean.steps, s.IsProper :=
  fun s hs => (mem_steps_append (mem_steps_clean hs)).elim (ha s) (hb s)

theorem proper_seen (root setting : String) :
    ∀ s ∈ (ofText root ++ ofText setting).clean.steps, s.IsProper :=
  proper_clean_append (proper_ofText root) (proper_ofText setting)

theorem isAbsoluteText_seen (h : isAbsoluteText root = true) (setting : String) :
    isAbsoluteText (ofText root ++ ofText setting).clean.text = true := by
  rw [isAbsoluteText_text (proper_seen root setting)]
  exact absolute_append h

/-- What anchoring does to a setting. -/
theorem anchored_cases (home? : Option String) (root setting : String) :
    anchored home? root setting = setting ∧ (setting = "" ∨ isAbsoluteText setting = true ∨
      (home? = none ∧ ∃ rest, afterHome? setting = some rest)) ∨
    (∃ home rest, home? = some home ∧ afterHome? setting = some rest ∧
      anchored home? root setting = (ofText home ++ ofText rest).clean.text) ∨
    (setting ≠ "" ∧ isAbsoluteText setting = false ∧ afterHome? setting = none ∧
      anchored home? root setting = (ofText root ++ ofText setting).clean.text) := by
  unfold anchored
  by_cases he : setting = ""
  · rw [he]
    exact Or.inl ⟨rfl, Or.inl rfl⟩
  rw [if_neg (by simpa using he)]
  rcases hr : afterHome? setting with _ | rest
  · rcases ha : isAbsoluteText setting with _ | _
    · exact Or.inr (Or.inr ⟨he, rfl, rfl, rfl⟩)
    · exact Or.inl ⟨rfl, Or.inr (Or.inl rfl)⟩
  · rcases home? with _ | home
    · exact Or.inl ⟨rfl, Or.inr (Or.inr ⟨rfl, rest, rfl⟩)⟩
    · exact Or.inr (Or.inl ⟨home, rest, rfl, rfl, rfl⟩)

theorem anchored_eq_empty_iff : anchored home? root setting = "" ↔ setting = "" := by
  have hseen : ∀ a b : String, (ofText a ++ ofText b).clean.text ≠ "" := fun a b =>
    text_ne_empty fun s hs => (proper_seen a b s hs).written
  rcases anchored_cases home? root setting with ⟨heq, -⟩ | ⟨home, rest, -, hr, heq⟩ |
    ⟨hne, -, -, heq⟩
  · rw [heq]
  · rw [heq]
    refine iff_of_false (hseen home rest) fun he => ?_
    rw [he] at hr
    cases hr
  · rw [heq]
    exact iff_of_false (hseen root setting) hne

theorem anchored_of_absolute (h : isAbsoluteText setting = true) :
    anchored home? root setting = setting := by
  rcases anchored_cases home? root setting with ⟨heq, -⟩ | ⟨home, rest, -, hr, -⟩ | ⟨-, ha, -, -⟩
  · exact heq
  · rw [afterHome?_of_absolute h] at hr
    cases hr
  · rw [h] at ha
    cases ha

theorem anchored_of_relative (he : setting ≠ "") (hr : afterHome? setting = none)
    (ha : isAbsoluteText setting = false) :
    anchored home? root setting = (ofText root ++ ofText setting).clean.text := by
  rw [anchored, if_neg (by simpa using he), hr]
  simp [ha]

/-- Seen from an absolute place, a setting comes out absolute unless it is empty or in an unknown
home folder. -/
theorem isAbsoluteText_anchored (hh : ∀ home ∈ home?, isAbsoluteText home = true)
    (hroot : isAbsoluteText root = true) (setting : String) :
    isAbsoluteText (anchored home? root setting) = true ∨ setting = "" ∨
      (home? = none ∧ ∃ rest, afterHome? setting = some rest) := by
  rcases anchored_cases home? root setting with ⟨heq, hs⟩ | ⟨home, rest, rfl, -, heq⟩ |
    ⟨-, -, -, heq⟩
  · rw [heq]
    rcases hs with hs | hs | hs
    · exact Or.inr (Or.inl hs)
    · exact Or.inl hs
    · exact Or.inr (Or.inr hs)
  · rw [heq]
    exact Or.inl (isAbsoluteText_seen (hh home rfl) rest)
  · rw [heq]
    exact Or.inl (isAbsoluteText_seen hroot setting)

end Anchored

section Twice

variable {home? : Option String} {root setting : String}

theorem relative_of_text (h : isAbsoluteText setting = false) :
    (ofText setting).absolute = false :=
  h

/-- A setting seen from a relative root. -/
theorem seen_eq (hroot : isAbsoluteText root = false) (ha : isAbsoluteText setting = false) :
    (ofText root ++ ofText setting).clean =
      ⟨false, (advanceAll false (advanceAll false [] (ofText root).steps)
        (ofText setting).steps).reverse⟩ := by
  rw [append_of_relative (relative_of_text ha), clean_eq, relative_of_text hroot,
    advanceAll_append]

/-- What is seen from a relative root is seen from it once more. -/
theorem anchored_seen (hroot : isAbsoluteText root = false) (ha : isAbsoluteText setting = false)
    (hr : afterHome? (ofText root ++ ofText setting).clean.text = none) :
    anchored home? root (ofText root ++ ofText setting).clean.text =
      text ⟨false, (advanceAll false (advanceAll false (advanceAll false [] (ofText root).steps)
        (ofText root).steps) (ofText setting).steps).reverse⟩ := by
  have hproper := proper_seen root setting
  have htext := ofText_text hproper
  have hrelative : isAbsoluteText (ofText root ++ ofText setting).clean.text = false := by
    rw [isAbsoluteText_text hproper, seen_eq hroot ha]
  have hne : (ofText root ++ ofText setting).clean.text ≠ "" :=
    text_ne_empty fun s hs => (hproper s hs).written
  rw [anchored_of_relative hne hr hrelative, seen_eq hroot hrelative, htext,
    append_of_relative (relative_of_text ha), clean_eq, relative_of_text hroot,
    advanceAll_cleaned, advanceAll_append]
  rfl

/-- A path that leads as often up as into a folder leads up first when it is cleaned. -/
theorem advanceAll_level {steps : List Step} (h : depth steps = 0) : ∃ names : List String,
    advanceAll false [] steps = names.map .into ++ List.replicate names.length .up := by
  obtain ⟨names, ups, hshape, -⟩ := cleanSteps_advanceAll false steps
  refine ⟨names, hshape.trans ?_⟩
  have hdepth := depth_advanceAll [] steps
  rw [h, hshape, depth_append, depth_into, depth_up] at hdepth
  have hnil : depth [] = 0 := rfl
  obtain rfl : ups = names.length := by omega
  rfl

/-- Seen twice from such a path is seen once. -/
theorem advanceAll_twice {steps : List Step} (h : depth steps = 0) :
    advanceAll false (advanceAll false [] steps) steps = advanceAll false [] steps := by
  obtain ⟨names, hshape⟩ := advanceAll_level h
  have hreverse : (advanceAll false [] steps).reverse =
      List.replicate names.length .up ++ names.reverse.map .into := by
    rw [hshape, List.reverse_append, List.reverse_replicate, List.map_reverse]
  calc advanceAll false (advanceAll false [] steps) steps
      = advanceAll false (advanceAll false [] steps) (advanceAll false [] steps).reverse :=
        (advanceAll_cleaned false _ [] steps).symm
    _ = advanceAll false (List.replicate names.length .up) (names.reverse.map .into) := by
        rw [hreverse, advanceAll_append, hshape, advanceAll_up]
    _ = advanceAll false [] steps := by
        rw [advanceAll_into, ← List.map_reverse, List.reverse_reverse, hshape]

theorem anchored_twice_of_absolute (hh : ∀ home ∈ home?, isAbsoluteText home = true)
    (hroot : isAbsoluteText root = true) (setting : String) :
    anchored home? root (anchored home? root setting) = anchored home? root setting := by
  rcases anchored_cases home? root setting with ⟨heq, -⟩ | ⟨home, rest, rfl, -, heq⟩ |
    ⟨-, -, -, heq⟩
  · rw [heq, heq]
  · rw [heq, anchored_of_absolute (isAbsoluteText_seen (hh home rfl) rest)]
  · rw [heq, anchored_of_absolute (isAbsoluteText_seen hroot setting)]

/-- A root that leads up first keeps a setting from starting with the home sign. -/
theorem afterHome?_seen (hroot : isAbsoluteText root = false) (ha : isAbsoluteText setting = false)
    (hdepth : depth (ofText root).steps = 0) (hne : (ofText root).clean.steps ≠ []) :
    afterHome? (ofText root ++ ofText setting).clean.text = none := by
  refine afterHome?_text (proper_seen root setting) ?_
  obtain ⟨names, hshape⟩ := advanceAll_level hdepth
  have hup : (advanceAll false [] (ofText root).steps).getLast? = some .up := by
    rcases names with _ | ⟨name, names⟩
    · rw [clean_eq, relative_of_text hroot, hshape] at hne
      exact absurd rfl hne
    · rw [hshape, List.getLast?_append, List.getLast?_replicate]
      simp
  rw [seen_eq hroot ha, List.head?_reverse, getLast?_advanceAll hup]
  simp

theorem anchored_twice_of_level (hh : ∀ home ∈ home?, isAbsoluteText home = true)
    (hroot : isAbsoluteText root = false) (hdepth : depth (ofText root).steps = 0)
    (hhere : (ofText root).clean.steps = [] → home? = none) (setting : String) :
    anchored home? root (anchored home? root setting) = anchored home? root setting := by
  rcases anchored_cases home? root setting with ⟨heq, -⟩ | ⟨home, rest, rfl, -, heq⟩ |
    ⟨-, ha, -, heq⟩
  · rw [heq, heq]
  · rw [heq, anchored_of_absolute (isAbsoluteText_seen (hh home rfl) rest)]
  · rw [heq]
    rcases hr : afterHome? (ofText root ++ ofText setting).clean.text with _ | rest
    · rw [anchored_seen hroot ha hr, advanceAll_twice hdepth, seen_eq hroot ha]
    · -- only from the place itself can a setting come to start with the home sign
      have hnone : home? = none := by
        refine hhere (by_contra fun hne => ?_)
        rw [afterHome?_seen hroot ha hdepth hne] at hr
        cases hr
      rw [hnone, anchored, hr]
      split
      · simp_all
      · rfl

/-- A path that leads up and then into one folder. -/
def aside (ups : Nat) : Path := ⟨false, List.replicate ups .up ++ [.into "a"]⟩

theorem proper_aside (ups : Nat) : ∀ s ∈ (aside ups).steps, s.IsProper := by
  intro s hs
  rcases List.mem_append.1 hs with hs | hs
  · rw [List.eq_of_mem_replicate hs]
    exact ⟨by decide, by decide⟩
  · rw [List.mem_singleton.1 hs]
    exact ⟨by decide, by decide⟩

theorem anchored_aside (home? : Option String) (root : String) (ups : Nat) :
    anchored home? root (aside ups).text = (ofText root ++ aside ups).clean.text := by
  have hproper := proper_aside ups
  have hhome : afterHome? (aside ups).text = none := by
    refine afterHome?_text hproper ?_
    rcases ups with _ | ups
    · decide
    · simp [aside, List.replicate_succ]
  rw [anchored_of_relative (text_ne_empty fun s hs => (hproper s hs).written) hhome
    (isAbsoluteText_text hproper), ofText_text hproper]

/-- Anchoring twice shows how deep a relative root leads. -/
theorem depth_of_anchored_twice (hroot : isAbsoluteText root = false)
    (h : ∀ setting, anchored home? root (anchored home? root setting) =
      anchored home? root setting) : depth (ofText root).steps = 0 := by
  obtain ⟨names, ups, hshape, -⟩ := cleanSteps_advanceAll false (ofText root).steps
  have hseen : ∀ more : Nat, (ofText root ++ aside more).clean =
      ⟨false, (advanceAll false (advanceAll false [] (ofText root).steps)
        (aside more).steps).reverse⟩ := by
    intro more
    rw [append_of_relative rfl, clean_eq, relative_of_text hroot, advanceAll_append]
  -- what leaves every folder the root goes into is seen as a path of the same kind
  have hleft : (ofText root ++ aside names.length).clean = aside ups := by
    rw [hseen, hshape, aside, advanceAll_append, advanceAll_up]
    simp [advanceAll, advance, aside]
  have htwice := h (aside names.length).text
  rw [anchored_aside, hleft, anchored_aside] at htwice
  have hpaths := congrArg ofText htwice
  rw [ofText_text (proper_aside ups),
    ofText_text (proper_clean_append (proper_ofText root) (proper_aside ups)), hseen] at hpaths
  have hdepth := congrArg (fun p : Path => depth p.steps) hpaths
  simp only [depth_reverse, depth_advanceAll] at hdepth
  have hnil : depth [] = 0 := rfl
  omega

/-- From the place itself a setting can come to start with the home sign. -/
theorem home_of_anchored_twice (hh : ∀ home ∈ home?, isAbsoluteText home = true)
    (hroot : isAbsoluteText root = false) (hhere : (ofText root).clean.steps = [])
    (h : anchored home? root (anchored home? root "./~") = anchored home? root "./~") :
    home? = none := by
  have hclean : advanceAll false [] (ofText root).steps = [] := by
    rw [clean_eq, relative_of_text hroot] at hhere
    exact List.reverse_eq_nil_iff.1 hhere
  have hseen : anchored home? root "./~" = "~" := by
    rw [anchored_of_relative (by decide) (by decide) (by decide),
      seen_eq hroot (by decide), hclean]
    decide
  rw [hseen] at h
  rcases home? with _ | home
  · rfl
  · have habsolute := isAbsoluteText_seen (hh home rfl) ""
    have hhome : anchored (some home) root "~" = (ofText home ++ ofText "").clean.text := rfl
    rw [← hhome, h] at habsolute
    cases habsolute

/-- Anchoring settings twice is anchoring them once, for all of them, exactly if the root is
absolute or leads as often up as into a folder, where it may lead nowhere only if there is no home
folder. -/
theorem anchored_twice_iff (hh : ∀ home ∈ home?, isAbsoluteText home = true) :
    (∀ setting, anchored home? root (anchored home? root setting) = anchored home? root setting) ↔
      isAbsoluteText root = true ∨
        (depth (ofText root).steps = 0 ∧ ((ofText root).clean.steps = [] → home? = none)) := by
  constructor
  · intro h
    rcases hroot : isAbsoluteText root with _ | _
    · refine Or.inr ⟨depth_of_anchored_twice hroot h, fun hhere => ?_⟩
      exact home_of_anchored_twice hh hroot hhere (h "./~")
    · exact Or.inl rfl
  · rcases hroot : isAbsoluteText root with _ | _
    · rintro (hfalse | ⟨hdepth, hhere⟩)
      · cases hfalse
      · exact anchored_twice_of_level hh hroot hdepth hhere
    · exact fun _ => anchored_twice_of_absolute hh hroot

end Twice

end Path

end BackupProfiles
