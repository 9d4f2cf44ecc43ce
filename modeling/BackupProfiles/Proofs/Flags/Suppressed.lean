import BackupProfiles.Config
import BackupProfiles.Proofs.Flags.Repository
import BackupProfiles.Proofs.Merge.Chain

/-!
# Settings of a section that are suppressed

The flags of a command are those of the profile with the settings of the section written over them
(`commandFlags_eq`). A suppressed setting writes nothing, so it does not take a flag of the profile
away: the flag stands as if the section did not name it (`get?_commandFlags_of_suppressed`).
-/

namespace BackupProfiles

open Flags

/-- The settings of the flags that a section adds by name. -/
def Table.sectionSettings (rt : Runtime) (command : String) (t : Table FlagValue) :
    Flags.Settings :=
  t.settings (sectionValues? rt (rt.table.supportsHost command))

def BackupSection.settings (rt : Runtime) (command : String) (b : BackupSection) :
    Flags.Settings :=
  [("stdin", (FlagValue.switch b.usesStdin).emitted?),
    ("exclude", (FlagValue.list b.exclude).emitted?),
    ("iexclude", (FlagValue.list b.iexclude).emitted?),
    ("exclude-file", (FlagValue.list b.excludeFile).emitted?),
    ("files-from", (FlagValue.list b.filesFrom).emitted?),
    ("tag", (FlagValue.list b.tag).emitted?)] ++ b.flags.sectionSettings rt command

def CopySection.settings (rt : Runtime) (c : CopySection) : Flags.Settings :=
  c.access.settings (if rt.usesSourceFlags then id else secondaryName false) ++
    c.flags.sectionSettings rt "copy"

def InitSection.settings (rt : Runtime) (i : InitSection) : Flags.Settings :=
  i.access.settings (secondaryName rt.usesSourceFlags) ++
    [("copy-chunker-params", (FlagValue.switch i.copiesChunkerParams).emitted?)] ++
    i.flags.sectionSettings rt "init"

namespace Profile

variable {p : Profile} {rt : Runtime} {f : Flags} {command name : String}

def retentionSettings (s : Surroundings) (rt : Runtime) (p : Profile) (r : RetentionSection) :
    Flags.Settings :=
  [("path", (p.retentionPaths? s r).bind fun paths => (FlagValue.list paths).emitted?),
    ("tag", (p.retentionTags? rt r).bind fun tags => (FlagValue.list tags).emitted?)] ++
    r.flags.sectionSettings rt "retention"

/-- What the section of a command sets, suppressed settings included. -/
def sectionSettings (s : Surroundings) (rt : Runtime) (p : Profile) (command : String) :
    Flags.Settings :=
  match rt.table.kindOf? command with
  | some .retention => p.retention?.elim [] (p.retentionSettings s rt)
  | some .backup => p.backup?.elim [] (·.settings rt command)
  | some .check => p.check?.elim [] (·.flags.sectionSettings rt command)
  | some .prune => p.prune?.elim [] (·.flags.sectionSettings rt command)
  | some .forget => p.forget?.elim [] (·.flags.sectionSettings rt command)
  | some .copy => p.copy?.elim [] (·.settings rt)
  | some .init => p.init?.elim [] (·.settings rt)
  | some .generic => (p.generic? command).elim [] (·.flags.sectionSettings rt command)
  | none => []

/-- The flags that the section of a command is written over. -/
def flagsBelow (rt : Runtime) (p : Profile) (command : String) : Flags :=
  if rt.table.kindOf? command = some .copy ∧ p.copy?.isSome ∧ rt.usesSourceFlags then
    p.commonFlags.renameRepository true
  else p.commonFlags

/-- The section of a command sets a flag, if at all, to values that suppress it. -/
def Suppresses (s : Surroundings) (rt : Runtime) (p : Profile) (command name : String) : Prop :=
  ∀ e ∈ p.sectionSettings s rt command, e.1 = name → e.2 = none

instance (s : Surroundings) (rt : Runtime) (p : Profile) (command name : String) :
    Decidable (p.Suppresses s rt command name) :=
  inferInstanceAs (Decidable (∀ e ∈ p.sectionSettings s rt command, e.1 = name → e.2 = none))

theorem addSection_eq_sectionSettings (f : Flags) (command : String) (t : Table FlagValue) :
    f.addSection rt command t = f.setAll (t.sectionSettings rt command) :=
  addSection_eq rt f command t

theorem addBackupFlags_eq (rt : Runtime) (command : String) (f : Flags) (b : BackupSection) :
    addBackupFlags rt command f b = f.setAll (b.settings rt command) := by
  rw [addBackupFlags, BackupSection.settings, setAll_append, addSection_eq_sectionSettings]
  simp only [addSwitch, addList, addValue_eq]
  rfl

theorem addCopyFlags_eq (rt : Runtime) (f : Flags) (c : CopySection) :
    addCopyFlags rt f c =
      (if rt.usesSourceFlags then f.renameRepository true else f).setAll (c.settings rt) := by
  rw [addCopyFlags, CopySection.settings, setAll_append, addSection_eq_sectionSettings]
  split
  · rw [addTo_eq]
  · rw [addTo_eq]

theorem addInitFlags_eq (rt : Runtime) (f : Flags) (i : InitSection) :
    addInitFlags rt f i = f.setAll (i.settings rt) := by
  rw [addInitFlags, InitSection.settings, setAll_append, setAll_append,
    addSection_eq_sectionSettings, addTo_eq, addSwitch, addValue_eq]
  rfl

theorem addListWhere_eq (f : Flags) (name : String) (items? : Option (List String)) :
    addListWhere f name items? =
      f.set name (items?.bind fun items => (FlagValue.list items).emitted?) := by
  cases items? with
  | none => rfl
  | some items => exact addValue_eq f name (.list items)

/-- A section that is written over flags, where the profile has it. -/
theorem elim_eq_setAll {α : Type} {add : α → Flags} {settings : α → Flags.Settings}
    (h : ∀ a, add a = f.setAll (settings a)) (part? : Option α) :
    part?.elim f add = f.setAll (part?.elim [] settings) := by
  cases part? with
  | none => rfl
  | some a => exact h a

theorem retentionFlags_eq (s : Surroundings) (rt : Runtime) (p : Profile) :
    p.retentionFlags s rt =
      p.commonFlags.setAll (p.retention?.elim [] (p.retentionSettings s rt)) := by
  rw [retentionFlags]
  cases p.retention? with
  | none => rfl
  | some r =>
    rw [Option.elim_some, retentionSettings, setAll_append]
    simp only [addSection_eq_sectionSettings, addListWhere_eq]
    rfl

/-- The flags of a command are the settings of its section written over the flags below them. -/
theorem commandFlags_eq (s : Surroundings) (rt : Runtime) (p : Profile) (command : String) :
    p.commandFlags s rt command =
      (p.flagsBelow rt command).setAll (p.sectionSettings s rt command) := by
  unfold commandFlags flagsBelow sectionSettings
  rcases rt.table.kindOf? command with _ | kind
  · rfl
  cases kind with
  | backup => exact elim_eq_setAll (addBackupFlags_eq rt command _) _
  | retention => exact retentionFlags_eq s rt p
  | copy =>
    cases p.copy? with
    | none => rfl
    | some c =>
      simp only [Option.elim_some, Option.isSome_some, true_and]
      exact addCopyFlags_eq rt _ c
  | init => exact elim_eq_setAll (addInitFlags_eq rt _) _
  | check | prune | forget | generic =>
    exact elim_eq_setAll (fun _ => addSection_eq_sectionSettings _ _ _) _

theorem flagsBelow_of_not_source (h : rt.table.kindOf? command ≠ some .copy ∨
    p.copy? = none ∨ rt.usesSourceFlags = false) : p.flagsBelow rt command = p.commonFlags := by
  refine if_neg fun hall => ?_
  rcases h with hk | hc | hv
  · exact hk hall.1
  · rw [hc] at hall
    exact absurd hall.2.1 (by simp)
  · rw [hv] at hall
    exact absurd hall.2.2 (by simp)

end Profile

theorem Flags.get?_setAll_of_suppressed {settings : Settings} {name : String}
    (h : ∀ e ∈ settings, e.1 = name → e.2 = none) (f : Flags) :
    (f.setAll settings).get? name = f.get? name := by
  induction settings generalizing f with
  | nil => rfl
  | cons e rest ih =>
    rw [List.forall_mem_cons] at h
    rw [setAll_cons, ih h.2, get?_set]
    split
    · rename_i he
      rw [h.1 he, Option.none_or]
    · rfl

namespace Profile

/-- A flag that the section of a command suppresses stays as the flags below the section have it:
as the profile sets it, or as its repository flags are named for the source of a copy. -/
theorem get?_commandFlags_of_suppressed {s : Surroundings} {rt : Runtime} {p : Profile}
    {command name : String} (h : p.Suppresses s rt command name) :
    (p.commandFlags s rt command).get? name = (p.flagsBelow rt command).get? name ∧
    (rt.table.kindOf? command ≠ some .copy ∨ p.copy? = none ∨ rt.usesSourceFlags = false →
      (p.commandFlags s rt command).get? name =
        ((p.flags.get? name).bind FlagValue.emitted?).or
          (entryFor? p.commonSettings name).join) := by
  have hbelow : (p.commandFlags s rt command).get? name = (p.flagsBelow rt command).get? name := by
    rw [commandFlags_eq, get?_setAll_of_suppressed h]
  refine ⟨hbelow, fun hplain => ?_⟩
  rw [hbelow, flagsBelow_of_not_source hplain, get?_commonFlags]

/-- A profile with a flag for a path, whose retention section is to give no path. -/
def pathWithheld : Profile :=
  { Profile.empty with
    retention? := some { RetentionSection.ofEntries [] with path := .disabled }
    flags := .ofList [("path", .text "/data")] }

theorem get?_commandFlags_pathWithheld :
    pathWithheld.Suppresses default .initial "retention" "path" ∧
      (pathWithheld.commandFlags default .initial "retention").get? "path" = some ["/data"] := by
  have hs : pathWithheld.Suppresses default .initial "retention" "path" := by decide
  refine ⟨hs, ?_⟩
  rw [(get?_commandFlags_of_suppressed hs).2 (Or.inl (by decide))]
  decide

/-- A configuration whose profile limits uploads, and whose section for snapshots sets the limit
to zero. -/
def limitLifted : Config := .ofDocument ⟨[
  (.string "default", .mapping [
    (.string "limit-upload", .number (.int 10)),
    (.string "snapshots", .mapping [(.string "limit-upload", .number (.int 0))])])]⟩ ""

theorem ancestry_limitLifted : ancestry limitLifted.profiles "default" = .ok [⟨"default", [
    (.string "limit-upload", .number (.int 10)),
    (.string "snapshots", .mapping [(.string "limit-upload", .number (.int 0))])]⟩] := by
  have hroot : limitLifted.profiles = limitLifted.document.root := by decide
  rw [hroot]
  exact ancestryFrom_last (by decide) rfl rfl (by decide)

/-- A section for which zero is given does not switch the flag of its profile off. -/
theorem commandFlags_limitLifted : ∃ p, (limitLifted.resolve default "default").result = .ok p ∧
    (p.generic? "snapshots").bind (·.flags.get? "limit-upload") = some (.integer 0) ∧
    p.Suppresses default limitLifted.runtime "snapshots" "limit-upload" ∧
    (p.commandFlags default limitLifted.runtime "snapshots").get? "limit-upload" =
      some ["10"] := by
  rw [Config.resolve, mergedBody_of_ancestry ancestry_limitLifted]
  exact ⟨_, rfl, by decide +kernel, by decide +kernel, by decide +kernel⟩

end Profile

end BackupProfiles
