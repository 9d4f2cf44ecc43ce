import BackupProfiles.CommandLine.Report
import BackupProfiles.Proofs.Document.Lookup
import BackupProfiles.Proofs.Document.Plain
import BackupProfiles.Proofs.Reading.Account
import BackupProfiles.Proofs.Traversal

/-!
# What is listed, and what is found

Profiles and declared schedules are listed by the texts of their keys and looked up by keys that are
texts. A number or a boolean has a text as well, so as a key it is listed and cannot be found: a
name is listed exactly if it is found or if such a key has its text (`Config.listed_iff`). Formats
without tags have only texts for keys, and there what is listed is what is found
(`Config.listed_iff_of_plain`).
-/

namespace BackupProfiles

/-- A key that is no text has the text `n`. -/
def Mapping.Imitates (m : Mapping) (n : String) : Prop :=
  ∃ key ∈ m.keys, key.keyText = some n ∧ key ≠ .string n

variable {m : Mapping} {n : String}

theorem Mapping.exists_keyText_iff :
    (∃ key ∈ m.keys, key.keyText = some n) ↔ m.get? (.string n) ≠ none ∨ m.Imitates n := by
  rw [← mem_keys_iff]
  constructor
  · rintro ⟨key, hk, ht⟩
    by_cases hs : key = .string n
    · exact Or.inl (hs ▸ hk)
    · exact Or.inr ⟨key, hk, ht, hs⟩
  · rintro (hk | ⟨key, hk, ht, -⟩)
    · exact ⟨.string n, hk, rfl⟩
    · exact ⟨key, hk, ht⟩

theorem Value.Plain.not_imitates (h : (Value.mapping m).Plain) : ¬ m.Imitates n := by
  rintro ⟨key, hk, ht, hs⟩
  obtain ⟨e, he, rfl⟩ := List.mem_map.1 hk
  obtain ⟨text, htext⟩ := h.key_eq he
  rw [htext] at ht hs
  exact hs (congrArg Value.string (Option.some.inj ht))

namespace Config

variable {c : Config}

theorem mem_profileNames : n ∈ c.profileNames ↔
    (c.hasProfile n = true ∨ c.profiles.Imitates n) ∧ (c.layout = .flat → n ∉ reserved) := by
  have hlayout : c.layout = .nested ∨ n ∉ reserved ↔ (c.layout = .flat → n ∉ reserved) := by
    cases c.layout <;> simp
  have hprofiles : (c.document.mapping? (profilesPath c.layout)).getD [] = c.profiles := rfl
  rw [profileNames, List.mem_mergeSort, List.mem_filter, Document.mem_keys, hprofiles,
    Mapping.exists_keyText_iff, ← profileValue?_eq, hasProfile, Option.isSome_iff_ne_none, ← hlayout]
  simp only [Bool.or_eq_true, decide_eq_true_eq, Bool.not_eq_true', List.contains_eq_mem,
    decide_eq_false_iff_not]

/-- The mapping of all declared schedules. -/
def schedules (c : Config) : Mapping :=
  match c.layout with
  | .flat => []
  | .nested => (c.document.mapping? ["schedules"]).getD []

/-- Looking up a declared schedule finds one, whether it can be read or not. -/
def FindsSchedule (c : Config) (n : String) : Prop :=
  ∀ m, c.scheduleEntry n ≠ .error (.scheduleNotFound m)

theorem scheduleEntry_of_none (h : c.schedules.get? (.string n) = none) :
    c.scheduleEntry n = .error (.scheduleNotFound n) := by
  unfold scheduleEntry
  cases hl : c.layout with
  | flat => rfl
  | nested =>
    have hat : c.document.at? ["schedules", n] = none := by
      rw [schedules, hl] at h
      exact (c.document.at?_concat ["schedules"] n).trans h
    simp only [hat]

theorem scheduleEntry_of_some {v : Value} (h : c.schedules.get? (.string n) = some v) :
    c.scheduleEntry n =
      (ScheduleEntry.read n v).mapError (.unreadable ("schedules." ++ n)) := by
  unfold scheduleEntry
  cases hl : c.layout with
  | flat =>
    rw [schedules, hl] at h
    cases h
  | nested =>
    have hat : c.document.at? ["schedules", n] = some v := by
      rw [schedules, hl] at h
      exact (c.document.at?_concat ["schedules"] n).trans h
    simp only [hat]
    rcases ScheduleEntry.read n v with f | entry <;> rfl

theorem scheduleEntry_eq_notFound_iff {m : String} :
    c.scheduleEntry n = .error (.scheduleNotFound m) ↔
      m = n ∧ c.schedules.get? (.string n) = none := by
  rcases h : c.schedules.get? (.string n) with _ | v
  · rw [scheduleEntry_of_none h]
    simp [eq_comm]
  · rw [scheduleEntry_of_some h]
    rcases ScheduleEntry.read n v with f | entry <;> simp [Except.mapError]

theorem findsSchedule_iff : c.FindsSchedule n ↔ c.schedules.get? (.string n) ≠ none := by
  simp only [FindsSchedule, ne_eq, scheduleEntry_eq_notFound_iff, not_and, forall_eq]

theorem mem_scheduleNames : n ∈ c.scheduleNames ↔ c.FindsSchedule n ∨ c.schedules.Imitates n := by
  have hkeys : n ∈ c.scheduleNames ↔ ∃ key ∈ c.schedules.keys, key.keyText = some n := by
    rw [scheduleNames, schedules]
    cases c.layout with
    | flat => simp
    | nested => rw [List.mem_mergeSort, Document.mem_keys]
  rw [hkeys, Mapping.exists_keyText_iff, findsSchedule_iff]

theorem declaredJobs_eq_error_iff {profile : String} {e : ConfigError} :
    c.declaredJobs profile = .error e ↔ c.scheduleNames.mapM c.scheduleEntry = .error e := by
  rw [declaredJobs]
  rcases c.scheduleNames.mapM c.scheduleEntry with why | entries
  · show Except.error why = Except.error e ↔ _
    rw [Except.error.injEq, Except.error.injEq]
  · exact ⟨nofun, nofun⟩

/-- The schedules of a profile fail for a missing one at the first that is listed and not found, if
all before it can be read. -/
theorem schedules_eq_notFound_iff {s : Surroundings} {name : String} {format : OutputFormat} :
    (Run.schedules s c name format).result = .error (.config (.scheduleNotFound n)) ↔
      (∃ p, (c.resolve s name).result = .ok p) ∧
        (c.schedules.Imitates n ∧ ¬ c.FindsSchedule n) ∧
        ∃ before after, c.scheduleNames = before ++ n :: after ∧
          ∀ m ∈ before, ∃ entry, c.scheduleEntry m = .ok entry := by
  have hjobs : c.declaredJobs name = .error (.scheduleNotFound n) ↔
      (c.schedules.Imitates n ∧ ¬ c.FindsSchedule n) ∧
        ∃ before after, c.scheduleNames = before ++ n :: after ∧
          ∀ m ∈ before, ∃ entry, c.scheduleEntry m = .ok entry := by
    rw [declaredJobs_eq_error_iff, mapM_eq_error_iff]
    constructor
    · rintro ⟨before, m, after, hnames, hbefore, hm⟩
      obtain ⟨rfl, hnone⟩ := scheduleEntry_eq_notFound_iff.1 hm
      have hfinds : ¬ c.FindsSchedule n := fun h => findsSchedule_iff.1 h hnone
      have hlisted : n ∈ c.scheduleNames := by simp [hnames]
      exact ⟨⟨(mem_scheduleNames.1 hlisted).resolve_left hfinds, hfinds⟩,
        before, after, hnames, hbefore⟩
    · rintro ⟨⟨-, hfinds⟩, before, after, hnames, hbefore⟩
      rw [findsSchedule_iff, not_not] at hfinds
      exact ⟨before, n, after, hnames, hbefore, scheduleEntry_eq_notFound_iff.2 ⟨rfl, hfinds⟩⟩
  rw [← hjobs, Run.schedules, Run.withProfile]
  rcases (c.resolve s name).result with why | p
  · simp
  · simp only [Run.ofExcept]
    rcases c.declaredJobs name with why | jobs <;> simp [Except.map]

/-- A profile is listed exactly if it is found or imitated, and not reserved in a flat document; a
declared schedule exactly if it is found or imitated. The schedules of a profile fail for a schedule
that is not found only where one is imitated. -/
theorem listed_iff (c : Config) :
    (∀ n, n ∈ c.profileNames ↔
      (c.hasProfile n = true ∨ c.profiles.Imitates n) ∧ (c.layout = .flat → n ∉ reserved)) ∧
    (∀ n, n ∈ c.scheduleNames ↔ c.FindsSchedule n ∨ c.schedules.Imitates n) ∧
    ∀ (s : Surroundings) (name : String) (format : OutputFormat) (n : String),
      (Run.schedules s c name format).result = .error (.config (.scheduleNotFound n)) ↔
        (∃ p, (c.resolve s name).result = .ok p) ∧
          (c.schedules.Imitates n ∧ ¬ c.FindsSchedule n) ∧
          ∃ before after, c.scheduleNames = before ++ n :: after ∧
            ∀ m ∈ before, ∃ entry, c.scheduleEntry m = .ok entry :=
  ⟨fun _ => mem_profileNames, fun _ => mem_scheduleNames, fun _ _ _ _ => schedules_eq_notFound_iff⟩

def countedText : String :=
  "version: 2\nprofiles:\n  home:\n    quiet: true\n  1:\n    quiet: true\n"
    ++ "schedules:\n  2:\n    run: backup\n"

/-- A document with numbers among the keys of its profiles and schedules. -/
def counted : Document := ⟨[
  (.string "version", .number (.int 2)),
  (.string "profiles", .mapping [
    (.string "home", .mapping [(.string "quiet", .bool true)]),
    (.number (.int 1), .mapping [(.string "quiet", .bool true)])]),
  (.string "schedules", .mapping [
    (.number (.int 2), .mapping [(.string "run", .string "backup")])])]⟩

/-- Numbers are listed among the profiles and the schedules, and cannot be found. -/
theorem listed_counted : Document.parse .yaml countedText = .ok counted ∧
    "1" ∈ (ofDocument counted "").profileNames ∧ (ofDocument counted "").hasProfile "1" = false ∧
    "2" ∈ (ofDocument counted "").scheduleNames ∧ ¬ (ofDocument counted "").FindsSchedule "2" ∧
    (Run.schedules default (ofDocument counted "") "home" .yaml).result =
      .error (.config (.scheduleNotFound "2")) := by
  have hlayout : (ofDocument counted "").layout = .nested := by decide
  have hprofiles : (ofDocument counted "").profiles.Imitates "1" := by
    rw [profiles_of_nested hlayout]
    exact ⟨.number (.int 1), by decide, by decide, by decide⟩
  have hschedules : (ofDocument counted "").schedules.Imitates "2" := by
    rw [schedules, hlayout]
    exact ⟨.number (.int 2), by decide, by decide, by decide⟩
  have hmissing : ¬ (ofDocument counted "").FindsSchedule "2" := by
    rw [findsSchedule_iff, schedules, hlayout]
    decide
  have hnames : (ofDocument counted "").scheduleNames = ["2"] := by
    have hkeys : (ofDocument counted "").document.keys ["schedules"] = ["2"] := by decide
    rw [scheduleNames, hlayout, hkeys]
    exact List.mergeSort_singleton "2"
  have hresolved : ∃ p, ((ofDocument counted "").resolve default "home").result = .ok p := by
    have hbody : mergedBody (ofDocument counted "").profiles "home" =
        .ok [(.string "quiet", .bool true)] := by
      rw [profiles_of_nested hlayout, mergedBody, ancestry,
        ancestryFrom_last (by decide) rfl rfl (by decide)]
      rfl
    rw [resolve, hbody]
    exact ⟨_, rfl⟩
  refine ⟨toOption_eq_some.1 (by decide +kernel), ?_, by decide, ?_, hmissing, ?_⟩
  · exact mem_profileNames.2 ⟨Or.inr hprofiles, by simp [hlayout]⟩
  · exact mem_scheduleNames.2 (Or.inr hschedules)
  · exact schedules_eq_notFound_iff.2
      ⟨hresolved, ⟨hschedules, hmissing⟩, [], [], hnames, by simp⟩

/-- In the formats without tags, what is listed is what is found. -/
theorem listed_iff_of_plain {format : Format} {text : String} {d : Document}
    (hf : format.IsPlain) (hd : Document.parse format text = .ok d) (file : String) :
    (∀ n, n ∈ (ofDocument d file).profileNames ↔ (ofDocument d file).hasProfile n = true ∧
      ((ofDocument d file).layout = .flat → n ∉ reserved)) ∧
    (∀ n, n ∈ (ofDocument d file).scheduleNames ↔ (ofDocument d file).FindsSchedule n) ∧
    ∀ (s : Surroundings) (name : String) (format : OutputFormat) (n : String),
      (Run.schedules s (ofDocument d file) name format).result ≠
        .error (.config (.scheduleNotFound n)) := by
  have hp := Document.plain_of_parse hf hd
  have hschedules : (Value.mapping (ofDocument d file).schedules).Plain := by
    rw [schedules]
    split
    · exact .nil
    · exact Document.plain_mapping? hp _
  refine ⟨fun n => ?_, fun n => ?_, fun s name format n h => ?_⟩
  · rw [mem_profileNames, or_iff_left (plain_profiles hp).not_imitates]
  · rw [mem_scheduleNames, or_iff_left hschedules.not_imitates]
  · exact hschedules.not_imitates (schedules_eq_notFound_iff.1 h).2.1.1

end Config

end BackupProfiles
