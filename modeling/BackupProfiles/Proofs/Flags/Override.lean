import BackupProfiles.Proofs.Flags.Derivation
import BackupProfiles.Proofs.Flags.Order
import BackupProfiles.Proofs.Profile.Resolved

/-!
# Flags that a section overrides

Settings without a name twice override the flags that they are written over: a name that is set
stands for its setting, in its old place if it had one, and every other name stands as before
(`Flags.overridden_setAll`). The section of a resolved profile sets no name twice, as its fields are
no flags of it (`Config.nodup_sectionSettings`). So it overrides the flags of the profile
(`Config.commandFlags_of_resolve`).
-/

namespace BackupProfiles

namespace Flags

/-- Flags that came from others by settings that override them. -/
structure Overridden (below : Flags) (settings : Settings) (f : Flags) : Prop where
  set : ∀ name values, (name, some values) ∈ settings → f.get? name = some values
  kept : ∀ name, name ∉ settings.written → f.get? name = below.get? name
  /-- The names stay where they are, and the new ones follow in the order of the settings. -/
  names : f.names = below.names ++ settings.written.filter (· ∉ below.names)
  /-- The arguments stand in the order of the names. -/
  arguments : f.arguments = f.names.flatMap fun name => argumentsOf name ((f.get? name).getD [])

theorem overridden_setAll {below : Flags} {settings : Settings} (hf : below.Distinct)
    (hn : (settings.map (·.1)).Nodup) : below.Overridden settings (below.setAll settings) where
  set name values h := by
    rw [get?_setAll hn, entryFor?_of_mem hn h, Option.join_some, Option.some_or]
  kept name h := by
    refine get?_setAll_of_suppressed (fun e he hname => ?_) below
    obtain ⟨other, _ | values⟩ := e
    · rfl
    · exact absurd (Settings.mem_written.2 ⟨values, hname ▸ he⟩) h
  names := names_setAll hn below
  arguments := arguments_eq (distinct_setAll hf settings)

/-- Settings of fields, followed by flags that have none of their names. -/
theorem nodup_append_sectionSettings {fields : Settings} {t : Table FlagValue}
    (hn : (fields.map (·.1)).Nodup) (hfree : ∀ name ∈ fields.map (·.1), t.get? name = none)
    (rt : Runtime) (command : String) :
    ((fields ++ t.sectionSettings rt command).map (·.1)).Nodup := by
  rw [List.map_append]
  refine hn.append (t.nodup_settings _) fun name hfield hflag => ?_
  rw [Table.sectionSettings, Table.settings, List.map_map] at hflag
  exact Table.mem_keys_iff.1 hflag (hfree name hfield)

theorem nodup_elim {α : Type} {settings : α → Settings} {part? : Option α}
    (h : ∀ a, part? = some a → ((settings a).map (·.1)).Nodup) :
    ((part?.elim [] settings).map (·.1)).Nodup := by
  rcases part? with _ | a
  · exact List.nodup_nil
  · exact h a rfl

end Flags

namespace Config

variable {c : Config} {s : Surroundings} {name command : String} {p : Profile} {rt : Runtime}

/-- A section sets no name twice, if it does not name a second repository: such a name can also be
that of a flag. -/
theorem nodup_sectionSettings (hp : (c.resolve s name).result = .ok p)
    (hcopy : rt.table.kindOf? command ≠ some .copy) (hinit : rt.table.kindOf? command ≠ some .init)
    (s' : Surroundings) : ((p.sectionSettings s' rt command).map (·.1)).Nodup := by
  unfold Profile.sectionSettings
  rcases hk : rt.table.kindOf? command with _ | kind
  · exact List.nodup_nil
  cases kind with
  | copy => exact absurd hk hcopy
  | init => exact absurd hk hinit
  | retention =>
    have hfields : ["path", "tag"] ⊆ RetentionSection.shape.fieldNames := by decide
    refine Flags.nodup_elim fun r hr => Flags.nodup_append_sectionSettings ?_ (fun n hn => ?_) rt _
    · show ["path", "tag"].Nodup
      decide
    · exact get?_retention_flags hp hr (hfields hn)
  | backup =>
    have hfields : ["stdin", "exclude", "iexclude", "exclude-file", "files-from", "tag"] ⊆
      BackupSection.shape.fieldNames := by decide
    refine Flags.nodup_elim fun b hb => Flags.nodup_append_sectionSettings ?_ (fun n hn => ?_) rt _
    · show ["stdin", "exclude", "iexclude", "exclude-file", "files-from", "tag"].Nodup
      decide
    · exact get?_backup_flags hp hb (hfields hn)
  | check | prune | forget | generic => exact Flags.nodup_elim fun _ _ => Table.nodup_settings _ _

/-- The flags of a command are those of the profile, overridden by the settings of its section. They
are those of the profile where the profile has no such section, or the tool no such command. Left
out are the commands that name a second repository. -/
theorem commandFlags_of_resolve (hp : (c.resolve s name).result = .ok p) (ht : rt.table = .builtin)
    (hcopy : CommandTable.builtin.kindOf? command ≠ some .copy)
    (hinit : CommandTable.builtin.kindOf? command ≠ some .init) (s' : Surroundings) :
    p.commonFlags.Overridden (p.sectionSettings s' rt command) (p.commandFlags s' rt command) ∧
    (CommandTable.builtin.kindOf? command = none ∨ p.sectionFlags? command = none →
      p.commandFlags s' rt command = p.commonFlags) := by
  have heq : p.commandFlags s' rt command =
      p.commonFlags.setAll (p.sectionSettings s' rt command) := by
    rw [Profile.commandFlags_eq, Profile.flagsBelow_of_not_source (Or.inl (by rwa [ht]))]
  refine ⟨?_, fun habsent => ?_⟩
  · rw [heq]
    exact Flags.overridden_setAll p.distinct_commonFlags
      (nodup_sectionSettings hp (by rwa [ht]) (by rwa [ht]) s')
  · rw [heq, Profile.sectionSettings_of_absent ht habsent]
    rfl

def limitedBody : Mapping := [
  (.string "repository", .string "r"),
  (.string "limit-upload", .number (.int 10)),
  (.string "backup", .mapping [
    (.string "host", .bool true),
    (.string "exclude", .list [.string "*.tmp"]),
    (.string "limit-upload", .number (.int 30))])]

/-- A profile with a flag that its backup section gives another value. -/
def limited : Config := .ofDocument ⟨[(.string "a", .mapping limitedBody)]⟩ ""

theorem mergedBody_limited : mergedBody limited.profiles "a" = .ok limitedBody := by
  have hroot : limited.profiles = limited.document.root := by decide
  rw [hroot, mergedBody, ancestry, ancestryFrom_last (by decide) rfl rfl (by decide)]
  exact toOption_eq_some.1 (by decide +kernel)

theorem commandFlags_of_resolve_limited : ∃ p, (limited.resolve default "a").result = .ok p ∧
    (p.commandFlags default (limited.runtimeIn (some "h") none) "backup").arguments =
      ["--repo=r", "--limit-upload=30", "--exclude=*.tmp", "--host=h"] ∧
    p.commandFlags default limited.runtime "sync" = p.commonFlags := by
  have hp : ∃ p, (limited.resolve default "a").result = .ok p := by
    rw [resolve_of_mergedBody mergedBody_limited]
    exact ⟨_, rfl⟩
  obtain ⟨p, hp⟩ := hp
  have hparts := hp
  rw [resolve_of_mergedBody mergedBody_limited] at hparts
  have hsettings : p.sectionSettings default (limited.runtimeIn (some "h") none) "backup" =
      [("stdin", none), ("exclude", some ["*.tmp"]), ("iexclude", none), ("exclude-file", none),
        ("files-from", none), ("tag", none), ("host", some ["h"]),
        ("limit-upload", some ["30"])] := by
    rw [← Except.ok.inj hparts]
    decide +kernel
  have hcommon : p.commonFlags = ⟨[("repo", ["r"]), ("limit-upload", ["10"])]⟩ := by
    rw [← Except.ok.inj hparts]
    decide +kernel
  have hover : p.commonFlags.Overridden
      (p.sectionSettings default (limited.runtimeIn (some "h") none) "backup") _ :=
    (commandFlags_of_resolve hp rfl (by decide) (by decide) default).1
  rw [hsettings, hcommon] at hover
  refine ⟨p, hp, ?_, ?_⟩
  · have hnames := hover.names.trans
      (show _ = ["repo", "limit-upload", "exclude", "host"] by decide)
    rw [hover.arguments, hnames]
    simp only [List.flatMap_cons, List.flatMap_nil, hover.kept "repo" (by decide),
      hover.set "limit-upload" ["30"] (by decide), hover.set "exclude" ["*.tmp"] (by decide),
      hover.set "host" ["h"] (by decide)]
    decide
  · exact (commandFlags_of_resolve hp rfl (by decide) (by decide) default).2 (Or.inl (by decide))

end Config

end BackupProfiles
