import BackupProfiles.Proofs.Flags.Copy
import BackupProfiles.Proofs.Flags.Suppressed
import BackupProfiles.Proofs.Profile.Account

/-!
# What flags are derived from

Flags are derived for a command, for the retention section, and for the creation of the destination
of a copy. The settings of a section are those of its fields and then the flags that it adds by name
(`Profile.sectionSettings_eq`), and its fields only write a few names (`Derivation.fieldNames`). Any
other name stands for what the section adds under it and what the profile has: the section wins in
the flags of a command, and the profile where a destination is created (`Profile.get?_of_derive?`).
-/

namespace BackupProfiles

open Flags

/-- Something that flags are derived for. -/
inductive Derivation where
  | command (name : String)
  | retention
  | copyInit
  deriving DecidableEq

namespace RepositoryAccess

/-- The names that a flag of a repository can get. -/
def allNames : List String := names.flatMap fun r => [r, "from-" ++ r, r ++ "2"]

end RepositoryAccess

namespace Derivation

/-- The section that the flags belong to. -/
def sectionName : Derivation → String
  | command name => name
  | retention => "retention"
  | copyInit => "copy"

/-- The names that the fields of sections write. -/
def fieldNames : List String :=
  ["path", "tag", "stdin", "exclude", "iexclude", "exclude-file", "files-from",
    "copy-chunker-params"] ++ RepositoryAccess.allNames

end Derivation

namespace CommandTable

variable {command : String} {kind : CommandKind}

theorem exists_row_of_kindOf? (h : builtin.kindOf? command = some kind) :
    ∃ row ∈ builtin.rows, row.name = command ∧ row.kind = kind := by
  obtain ⟨row, hrow, hkind⟩ := Option.map_eq_some_iff.1 h
  exact ⟨row, List.mem_of_find?_eq_some hrow, by simpa using List.find?_some hrow, hkind⟩

/-- A kind that one row of the table has belongs to one command. -/
theorem eq_of_kindOf? (name : String) (h : builtin.kindOf? command = some kind)
    (hone : ∀ row ∈ builtin.rows, row.kind = kind → row.name = name) : command = name := by
  obtain ⟨row, hrow, rfl, hkind⟩ := exists_row_of_kindOf? h
  exact hone row hrow hkind

end CommandTable

namespace Profile

variable {s : Surroundings} {rt : Runtime} {p : Profile} {command n : String}

def derive? (s : Surroundings) (rt : Runtime) (p : Profile) : Derivation → Option Flags
  | .command name => some (p.commandFlags s rt name)
  | .retention => some (p.retentionFlags s rt)
  | .copyInit => p.copyInitFlags? rt

/-- The flags that the section of a command adds by name. -/
def namedFlags (p : Profile) (command : String) : Table FlagValue :=
  if CommandTable.builtin.contains command then (p.sectionFlags? command).getD .empty else .empty

/-- What the section of a command adds under a name. -/
def addedValues? (rt : Runtime) (p : Profile) (command n : String) : Option (List String) :=
  ((p.namedFlags command).get? n).bind
    (sectionValues? rt (CommandTable.builtin.supportsHost command) n)

/-- What derived flags have under a name that no field writes. -/
def derivedValues? (rt : Runtime) (p : Profile) (n : String) : Derivation → Option (List String)
  | .copyInit => (p.commonFlags.get? n).or (p.addedValues? rt "copy" n)
  | what => (p.addedValues? rt what.sectionName n).or (p.commonFlags.get? n)

/-- What the section of a command sets by its fields. -/
def fieldSettings (s : Surroundings) (rt : Runtime) (p : Profile) (command : String) :
    Flags.Settings :=
  match rt.table.kindOf? command with
  | some .retention => p.retention?.elim [] fun r =>
      p.retentionSettings s rt { r with flags := .empty }
  | some .backup => p.backup?.elim [] fun b =>
      BackupSection.settings rt command { b with flags := .empty }
  | some .copy => p.copy?.elim [] fun c => CopySection.settings rt { c with flags := .empty }
  | some .init => p.init?.elim [] fun i => InitSection.settings rt { i with flags := .empty }
  | _ => []

theorem retentionFlags_eq_commandFlags (ht : rt.table = .builtin) :
    p.retentionFlags s rt = p.commandFlags s rt "retention" := by
  have hk : rt.table.kindOf? "retention" = some .retention := by
    rw [ht]
    decide
  rw [commandFlags, hk]

/-- The flags of the section of a command, by its kind. -/
def kindFlags? (p : Profile) (command : String) : CommandKind → Option (Table FlagValue)
  | .backup => p.backup?.map (·.flags)
  | .retention => p.retention?.map (·.flags)
  | .check => p.check?.map (·.flags)
  | .prune => p.prune?.map (·.flags)
  | .forget => p.forget?.map (·.flags)
  | .copy => p.copy?.map (·.flags)
  | .init => p.init?.map (·.flags)
  | .generic => (p.generic? command).map (·.flags)

theorem sectionFlags?_of_kindOf? {kind : CommandKind}
    (hk : CommandTable.builtin.kindOf? command = some kind) :
    p.sectionFlags? command = p.kindFlags? command kind := by
  cases kind with
  | backup =>
    obtain rfl := CommandTable.eq_of_kindOf? "backup" hk (by decide)
    rfl
  | retention =>
    obtain rfl := CommandTable.eq_of_kindOf? "retention" hk (by decide)
    rfl
  | check =>
    obtain rfl := CommandTable.eq_of_kindOf? "check" hk (by decide)
    rfl
  | prune =>
    obtain rfl := CommandTable.eq_of_kindOf? "prune" hk (by decide)
    rfl
  | forget =>
    obtain rfl := CommandTable.eq_of_kindOf? "forget" hk (by decide)
    rfl
  | copy =>
    obtain rfl := CommandTable.eq_of_kindOf? "copy" hk (by decide)
    rfl
  | init =>
    obtain rfl := CommandTable.eq_of_kindOf? "init" hk (by decide)
    rfl
  | generic =>
    unfold sectionFlags?
    split <;> first | rfl | exact absurd hk (by decide)

theorem namedFlags_of_kindOf? {kind : CommandKind}
    (hk : CommandTable.builtin.kindOf? command = some kind) :
    p.namedFlags command = (p.kindFlags? command kind).getD .empty := by
  rw [namedFlags, if_pos, sectionFlags?_of_kindOf? hk]
  rw [CommandTable.contains, ← Option.isSome_map (f := (·.kind))]
  exact Option.isSome_of_eq_some hk

theorem namedFlags_of_none (hk : CommandTable.builtin.kindOf? command = none) :
    p.namedFlags command = .empty := by
  rw [namedFlags, if_neg]
  rw [CommandTable.contains, Option.map_eq_none_iff.1 hk]
  decide

/-- The settings of a section are those of its fields, then those that it adds by name. -/
theorem sectionSettings_eq (ht : rt.table = .builtin) (s : Surroundings) (p : Profile)
    (command : String) : p.sectionSettings s rt command =
      p.fieldSettings s rt command ++ (p.namedFlags command).sectionSettings rt command := by
  unfold sectionSettings fieldSettings
  rw [ht]
  rcases hk : CommandTable.builtin.kindOf? command with _ | kind
  · rw [namedFlags_of_none hk]
    rfl
  rw [namedFlags_of_kindOf? hk]
  unfold kindFlags?
  cases kind with
  -- three of the sections are written under names of their own, which are those of their commands
  | retention =>
    obtain rfl := CommandTable.eq_of_kindOf? "retention" hk (by decide)
    rcases p.retention? with _ | r <;> rfl
  | copy =>
    obtain rfl := CommandTable.eq_of_kindOf? "copy" hk (by decide)
    rcases p.copy? with _ | c <;> rfl
  | init =>
    obtain rfl := CommandTable.eq_of_kindOf? "init" hk (by decide)
    rcases p.init? with _ | i <;> rfl
  | backup => rcases p.backup? with _ | b <;> rfl
  | check => rcases p.check? with _ | c <;> rfl
  | prune => rcases p.prune? with _ | c <;> rfl
  | forget => rcases p.forget? with _ | c <;> rfl
  | generic => rcases p.generic? command with _ | g <;> rfl

/-- A section that a profile does not have sets nothing. -/
theorem sectionSettings_of_absent (ht : rt.table = .builtin)
    (h : CommandTable.builtin.kindOf? command = none ∨ p.sectionFlags? command = none)
    (s : Surroundings) : p.sectionSettings s rt command = [] := by
  unfold sectionSettings
  rw [ht]
  rcases hk : CommandTable.builtin.kindOf? command with _ | kind
  · rfl
  have hnone := h.resolve_left (by simp [hk])
  rw [sectionFlags?_of_kindOf? hk] at hnone
  cases kind <;> simp only [Option.map_eq_none_iff.1 hnone, Option.elim_none]

theorem mem_fieldNames_of_elim {α : Type} {settings : α → Flags.Settings}
    (h : ∀ a, (settings a).map (·.1) ⊆ Derivation.fieldNames) (part? : Option α) :
    (part?.elim [] settings).map (·.1) ⊆ Derivation.fieldNames := by
  cases part? with
  | none => exact List.nil_subset _
  | some a => exact h a

/-- The fields of a section only write a few names. -/
theorem names_fieldSettings (s : Surroundings) (rt : Runtime) (p : Profile) (command : String) :
    (p.fieldSettings s rt command).map (·.1) ⊆ Derivation.fieldNames := by
  have haccess : ∀ sources, RepositoryAccess.names.map (secondaryName sources) ⊆
      Derivation.fieldNames := by decide
  unfold fieldSettings
  split
  · exact mem_fieldNames_of_elim (fun _ => show ["path", "tag"] ⊆ _ by decide) _
  · refine mem_fieldNames_of_elim (fun _ => show
      ["stdin", "exclude", "iexclude", "exclude-file", "files-from", "tag"] ⊆ _ by decide) _
  · refine mem_fieldNames_of_elim (fun c => ?_) _
    show RepositoryAccess.names.map (if rt.usesSourceFlags then id else secondaryName false) ⊆ _
    split
    · decide
    · exact haccess false
  · refine mem_fieldNames_of_elim (fun i => ?_) _
    show RepositoryAccess.names.map (secondaryName rt.usesSourceFlags) ++ ["copy-chunker-params"] ⊆ _
    exact List.append_subset.2 ⟨haccess _, by decide⟩
  · exact List.nil_subset _

theorem get?_flagsBelow_of_notMem (hn : n ∉ Derivation.fieldNames) (rt : Runtime) (p : Profile)
    (command : String) : (p.flagsBelow rt command).get? n = p.commonFlags.get? n := by
  have hplain : RepositoryAccess.names ⊆ Derivation.fieldNames := by decide
  have hsource : RepositoryAccess.names.map (secondaryName true) ⊆ Derivation.fieldNames := by
    decide
  unfold flagsBelow
  split
  · exact get?_renameRepository_of_notMem p.distinct_commonFlags (fun h => hn (hplain h)) fun h => hn (hsource h)
  · rfl

/-- In the flags of a command, the section wins over the profile. -/
theorem get?_commandFlags_of_notMem (hn : n ∉ Derivation.fieldNames) (ht : rt.table = .builtin)
    (s : Surroundings) (p : Profile) (command : String) :
    (p.commandFlags s rt command).get? n =
      (p.addedValues? rt command n).or (p.commonFlags.get? n) := by
  have hfields : ∀ e ∈ p.fieldSettings s rt command, e.1 = n → e.2 = none := fun e he h =>
    absurd (h ▸ names_fieldSettings s rt p command (List.mem_map_of_mem he)) hn
  rw [commandFlags_eq, sectionSettings_eq ht, setAll_append, ← addSection_eq_sectionSettings,
    get?_addSection, get?_setAll_of_suppressed hfields, get?_flagsBelow_of_notMem hn, ht,
    addedValues?]

theorem namedFlags_copy (p : Profile) : p.namedFlags "copy" = (p.copy?.map (·.flags)).getD .empty :=
  rfl

/-- Where the destination of a copy is created, the profile wins over the section. -/
theorem get?_copyInitFlags_of_notMem (hn : n ∉ Derivation.fieldNames) (ht : rt.table = .builtin)
    {f : Flags} (hf : p.copyInitFlags? rt = some f) :
    f.get? n = (p.commonFlags.get? n).or (p.addedValues? rt "copy" n) := by
  have hplain : n ∉ RepositoryAccess.names := fun h =>
    hn ((by decide : RepositoryAccess.names ⊆ Derivation.fieldNames) h)
  have hsecond : n ∉ RepositoryAccess.names.map (secondaryName rt.usesSourceFlags) := by
    have hall : ∀ sources, RepositoryAccess.names.map (secondaryName sources) ⊆
      Derivation.fieldNames := by decide
    exact fun h => hn (hall _ h)
  have hchunker : n ≠ "copy-chunker-params" := by
    rintro rfl
    exact hn (by decide)
  rcases hc : p.copy? with _ | c
  · rw [copyInitFlags?, hc] at hf
    cases hf
  · obtain ⟨g, hg, -, -, hget⟩ := copyInitFlags?_of_copy (p := p) rt hc
    obtain rfl : f = g := Option.some.inj (hf.symm.trans hg)
    have haccess : (c.access.addTo id Flags.empty).get? n = none := by
      rw [RepositoryAccess.get?_addTo_of_notMem Function.injective_id _ _ (by rwa [List.map_id]),
        get?_empty]
    rw [hget n hchunker, get?_renameRepository_of_notMem p.distinct_commonFlags hplain hsecond, get?_addSection, haccess,
      Option.or_none, addedValues?, namedFlags_copy, hc, ht]
    rfl

theorem get?_commonFlags_of_none (hn : n ∉ p.commonSettings.map (·.1))
    (h : p.flags.get? n = none) : p.commonFlags.get? n = none := by
  rw [get?_commonFlags, h, entryFor?_eq_none_iff.2 hn]
  rfl

theorem sectionFlags?_of_namedFlags (h : (p.namedFlags command).get? n ≠ none) :
    ∃ flags, p.sectionFlags? command = some flags ∧ flags.get? n ≠ none := by
  unfold namedFlags at h
  split at h
  · rcases hs : p.sectionFlags? command with _ | flags <;> rw [hs] at h
    · exact absurd rfl h
    · exact ⟨flags, rfl, h⟩
  · exact absurd rfl h

theorem get?_of_derive? {what : Derivation} {f : Flags} (ht : rt.table = .builtin)
    (hn : n ∉ Derivation.fieldNames) (hf : p.derive? s rt what = some f) :
    f.get? n = p.derivedValues? rt n what := by
  cases what with
  | copyInit => exact get?_copyInitFlags_of_notMem hn ht hf
  | command name =>
    obtain rfl := Option.some.inj hf
    exact get?_commandFlags_of_notMem hn ht s p name
  | retention =>
    obtain rfl := Option.some.inj hf
    rw [retentionFlags_eq_commandFlags ht]
    exact get?_commandFlags_of_notMem hn ht s p "retention"

theorem derivedValues?_of_none {what : Derivation} (hc : p.commonFlags.get? n = none)
    (hs : (p.namedFlags what.sectionName).get? n = none) : p.derivedValues? rt n what = none := by
  have hadded : p.addedValues? rt what.sectionName n = none := by
    rw [addedValues?, hs, Option.bind_none]
  cases what with
  | copyInit =>
    rw [derivedValues?, hc]
    exact hadded
  | command name | retention => simp only [derivedValues?, hadded, hc, Option.or_none]

/-- A name that no field writes is that of a flag of the profile or of the section. -/
theorem origin_of_derive? {what : Derivation} {f : Flags} (ht : rt.table = .builtin)
    (hn : n ∉ Derivation.fieldNames) (hc : n ∉ p.commonSettings.map (·.1))
    (hf : p.derive? s rt what = some f) (h : f.get? n ≠ none) :
    p.flags.get? n ≠ none ∨
      ∃ flags, p.sectionFlags? what.sectionName = some flags ∧ flags.get? n ≠ none := by
  by_cases hp : p.flags.get? n = none
  · refine Or.inr (sectionFlags?_of_namedFlags fun hs => h ?_)
    rw [get?_of_derive? ht hn hf, derivedValues?_of_none (get?_commonFlags_of_none hc hp) hs]
  · exact Or.inl hp

end Profile

/-- What flags depend on, in a state of the host and of the version of the tool. -/
def Config.runtimeIn (c : Config) (host? : Option String) (version? : Option ToolVersion) :
    Runtime :=
  { c.runtime with host? := host?, version? := version? }

end BackupProfiles
