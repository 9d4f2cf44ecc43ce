import BackupProfiles.Proofs.Flags.Suppressed
import BackupProfiles.Proofs.Path.Anchored
import BackupProfiles.Proofs.Profile.Resolved

/-!
# Paths and tags of the retention section

The section has no flag of its own for paths and tags, so these two flags are what the section
selects, or else what the profile has (`Profile.get?_retentionFlags_path`). Every path that comes
out different is recorded under a description of its own, so the log changes there and nowhere else
(`Profile.reports_sources`). Together: the paths are those that the backup tool stores, and the log
tells the changed ones (`Config.retention_of_resolve`).
-/

namespace BackupProfiles

namespace Profile

open Flags

variable {s : Surroundings} {rt : Runtime} {p : Profile} {r : RetentionSection}

theorem retentionFlags_of_some (s : Surroundings) (rt : Runtime) (hr : p.retention? = some r) :
    p.retentionFlags s rt =
      (((p.commonFlags.set "path" ((p.retentionPaths? s r).bind fun paths =>
        (FlagValue.list paths).emitted?)).set "tag" ((p.retentionTags? rt r).bind fun tags =>
          (FlagValue.list tags).emitted?)).addSection rt "retention" r.flags) := by
  rw [retentionFlags_eq, hr, Option.elim_some, retentionSettings, setAll_append,
    addSection_eq_sectionSettings]
  rfl

theorem get?_retentionFlags_path (hr : p.retention? = some r) (hp : r.flags.get? "path" = none) :
    (p.retentionFlags s rt).get? "path" = ((p.retentionPaths? s r).bind fun paths =>
      (FlagValue.list paths).emitted?).or (p.commonFlags.get? "path") := by
  rw [retentionFlags_of_some s rt hr, get?_addSection_of_none _ hp, get?_set, if_neg (by decide),
    get?_set, if_pos rfl]

theorem get?_retentionFlags_tag (hr : p.retention? = some r) (ht : r.flags.get? "tag" = none) :
    (p.retentionFlags s rt).get? "tag" = ((p.retentionTags? rt r).bind fun tags =>
      (FlagValue.list tags).emitted?).or (p.commonFlags.get? "tag") := by
  rw [retentionFlags_of_some s rt hr, get?_addSection_of_none _ ht, get?_set, if_pos rfl,
    get?_set, if_neg (by decide)]

theorem backupPaths_eq (p : Profile) : p.backupPaths = p.sources.flatMap (·.paths) := by
  unfold backupPaths sources
  rcases p.backup? with _ | b
  · rfl
  · simp only [Option.elim_some, BackupSection.paths]
    rcases b.expansion? with _ | found
    · simp only [List.flatMap_map]
      exact (List.flatMap_singleton' b.source).symm
    · rfl

/-- The absolute sources are the paths that are backed up, made absolute. -/
theorem absoluteSources_paths (s : Surroundings) (p : Profile) :
    (p.absoluteSources s).flatMap (·.paths) = p.backupPaths.map s.absolute := by
  rw [absoluteSources, backupPaths_eq, List.flatMap_map, List.map_flatMap]

end Profile

section Selection

/-- How a source that came out different is described. -/
def sourceDescription (pattern : String) : String :=
  "path (from source) \"" ++ pattern ++ "\""

/-- How a path that came out different is described. -/
def pathDescription (path : String) : String := "path \"" ++ path ++ "\""

theorem sourceDescription_injective : Function.Injective sourceDescription := fun _ _ h =>
  (String.append_right_inj _).1 ((String.append_left_inj _).1 h)

theorem pathDescription_injective : Function.Injective pathDescription := fun _ _ h =>
  (String.append_right_inj _).1 ((String.append_left_inj _).1 h)

namespace Profile

variable {s : Surroundings} {p : Profile} {r : RetentionSection} {paths : List String}

theorem retentionPaths?_of_backup (s : Surroundings) (p : Profile)
    (hpath : r.path = .unset ∨ r.path = .fromBackup) :
    p.retentionPaths? s r = some (p.backupPaths.map s.absolute) := by
  rw [← absoluteSources_paths]
  unfold retentionPaths?
  rcases hpath with h | h <;> rw [h]

theorem reports_sources (hr : p.retention? = some r)
    (hpath : r.path = .unset ∨ r.path = .fromBackup)
    (hs : ∀ a ∈ p.sources, ∀ b ∈ p.sources, a.pattern = b.pattern → a = b) (log : Issues) :
    Issues.Reports p.sources (fun a => sourceDescription a.pattern) (fun a => [a.pattern])
      (fun a => a.paths.map s.absolute) log (log.changeAll (p.retentionChanges s)) := by
  have hchanges : p.retentionChanges s =
      (p.sources.filter fun a => a.paths.map s.absolute ≠ [a.pattern]).map fun a =>
        (sourceDescription a.pattern, a.paths.map s.absolute) := by
    unfold retentionChanges
    rw [hr]
    rcases hpath with h | h
    · simp only [h, absoluteSources, List.filter_map, List.map_map]
      rfl
    · simp only [h, absoluteSources, List.filter_map, List.map_map]
      rfl
  rw [hchanges]
  exact Issues.reports_changeAll
    (fun a ha b hb h => hs a ha b hb (sourceDescription_injective h)) log

theorem reports_paths (hr : p.retention? = some r) (hpath : r.path = .values paths)
    (log : Issues) : Issues.Reports paths pathDescription (fun path => [path])
      (fun path => [s.absolute path]) log (log.changeAll (p.retentionChanges s)) := by
  have hchanges : p.retentionChanges s =
      (paths.filter fun path => [s.absolute path] ≠ [path]).map fun path =>
        (pathDescription path, [s.absolute path]) := by
    unfold retentionChanges
    rw [hr]
    simp only [hpath, ne_eq, List.cons.injEq, and_true]
    rfl
  rw [hchanges]
  exact Issues.reports_changeAll (fun a _ b _ h => pathDescription_injective h) log

end Profile

namespace Config

variable {c : Config} {s : Surroundings} {name : String} {p : Profile} {r : RetentionSection}

/-- The retention section selects what is backed up. In an absolute current folder, with an absolute
home folder or none: left unset or on, its paths are those of the backup section, made absolute, and
those of the profile where there are none; written out, its paths are the ones written, made
absolute. A path is absolute unless it is empty or in an unknown home folder. The log changes by the
sources, or the paths, that came out different, and by nothing else. -/
theorem retention_of_resolve (hp : (c.resolve s name).result = .ok p) (hr : p.retention? = some r)
    {s' : Surroundings} (hhere : Path.isAbsoluteText s'.here = true)
    (hhome : ∀ home ∈ s'.home?, Path.isAbsoluteText home = true) (rt : Runtime) :
    (r.path = .unset ∨ r.path = .fromBackup →
      (p.retentionFlags s' rt).get? "path" =
        (if p.backupPaths = [] then p.commonFlags.get? "path"
          else some (p.backupPaths.map s'.absolute)) ∧
      ∀ log : Issues, Issues.Reports p.sources (fun a => sourceDescription a.pattern)
        (fun a => [a.pattern]) (fun a => a.paths.map s'.absolute) log
        (log.changeAll (p.retentionChanges s'))) ∧
    (∀ paths, r.path = .values paths →
      (paths ≠ [] → (p.retentionFlags s' rt).get? "path" = some (paths.map s'.absolute)) ∧
      ∀ log : Issues, Issues.Reports paths pathDescription (fun path => [path])
        (fun path => [s'.absolute path]) log (log.changeAll (p.retentionChanges s'))) ∧
    (r.path = .disabled → ∀ log : Issues, log.changeAll (p.retentionChanges s') = log) ∧
    ∀ entry, Path.isAbsoluteText (s'.absolute entry) = true ∨ entry = "" ∨
      s'.home? = none ∧ (entry = "~" ∨ "~/".toList <+: entry.toList) := by
  have hown : r.flags.get? "path" = none := get?_retention_flags hp hr (by decide)
  refine ⟨fun hpath => ⟨?_, fun log => ?_⟩, fun paths hpath => ⟨fun hne => ?_, fun log => ?_⟩,
    fun hpath log => ?_, fun entry => ?_⟩
  · rw [Profile.get?_retentionFlags_path hr hown, Profile.retentionPaths?_of_backup s' p hpath,
      Option.bind_some, FlagValue.emitted?]
    by_cases hempty : p.backupPaths = []
    · rw [hempty]
      rfl
    · rw [if_neg (by simpa using hempty), if_neg hempty, Option.some_or]
  · refine Profile.reports_sources hr hpath (fun a ha b hb hab => ?_) log
    rw [sources_of_resolve hp] at ha hb
    obtain ⟨pattern, -, rfl⟩ := List.mem_map.1 ha
    obtain ⟨other, -, rfl⟩ := List.mem_map.1 hb
    obtain rfl : pattern = other := hab
    rfl
  · rw [Profile.get?_retentionFlags_path hr hown, Profile.retentionPaths?, hpath]
    show (FlagValue.list (paths.map s'.absolute)).emitted?.or _ = _
    rw [FlagValue.emitted?, if_neg (by simpa using hne), Option.some_or]
  · exact Profile.reports_paths hr hpath log
  · rw [Profile.retentionChanges, hr]
    simp only [hpath]
    rfl
  · rcases Path.isAbsoluteText_anchored hhome hhere entry with h | h | ⟨h, rest, hrest⟩
    · exact Or.inl h
    · exact Or.inr (Or.inl h)
    · exact Or.inr (Or.inr ⟨h, Path.of_afterHome? hrest⟩)

def backedUpBody : Mapping := [
  (.string "backup", .mapping [(.string "source", .list [.string "data", .string "/x"])]),
  (.string "retention", .mapping [])]

/-- A profile with a source in the current folder and one outside it. -/
def backedUp : Config := .ofDocument ⟨[(.string "a", .mapping backedUpBody)]⟩ ""

/-- A current folder without a home folder. -/
def atWork : Surroundings := ⟨"/work", none, default⟩

theorem mergedBody_backedUp : mergedBody backedUp.profiles "a" = .ok backedUpBody := by
  have hroot : backedUp.profiles = backedUp.document.root := by decide
  rw [hroot, mergedBody, ancestry, ancestryFrom_last (by decide) rfl rfl (by decide)]
  exact toOption_eq_some.1 (by decide +kernel)

theorem retention_of_resolve_backedUp : ∃ p r, (backedUp.resolve default "a").result = .ok p ∧
    p.retention? = some r ∧ r.path = .unset ∧
    (p.retentionFlags atWork .initial).get? "path" = some ["/work/data", "/x"] ∧
    (Issues.empty.changeAll (p.retentionChanges atWork)).changed.get?
      (sourceDescription "data") = some ["/work/data"] ∧
    (Issues.empty.changeAll (p.retentionChanges atWork)).changed.get?
      (sourceDescription "/x") = none := by
  have hp : ∃ p, (backedUp.resolve default "a").result = .ok p := by
    rw [resolve_of_mergedBody mergedBody_backedUp]
    exact ⟨_, rfl⟩
  obtain ⟨p, hp⟩ := hp
  have hparts := hp
  rw [resolve_of_mergedBody mergedBody_backedUp] at hparts
  have hr : p.retention? = some (RetentionSection.ofEntries []) := by
    rw [← Except.ok.inj hparts]
    rfl
  have hsources : p.sources = [⟨"data", ["data"]⟩, ⟨"/x", ["/x"]⟩] := by
    rw [← Except.ok.inj hparts]
    rfl
  have hhere : Path.isAbsoluteText atWork.here = true := by decide
  obtain ⟨hbackup, -⟩ := retention_of_resolve hp hr hhere (fun _ h => nomatch h) .initial
  obtain ⟨hflag, hlog⟩ := hbackup (Or.inl rfl)
  refine ⟨p, _, hp, hr, rfl, ?_, ?_, ?_⟩
  · have hpaths : p.backupPaths = ["data", "/x"] := by
      rw [Profile.backupPaths_eq, hsources]
      rfl
    rw [hflag, hpaths, if_neg (by decide)]
    exact congrArg some (by decide)
  · exact (hlog .empty).reported ⟨"data", ["data"]⟩ (by simp [hsources]) (by decide)
  · exact (hlog .empty).unreported ⟨"/x", ["/x"]⟩ (by simp [hsources]) (by decide)

end Config

end Selection

end BackupProfiles
