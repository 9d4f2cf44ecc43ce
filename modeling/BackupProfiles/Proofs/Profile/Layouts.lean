import BackupProfiles.Proofs.Document.Parts
import BackupProfiles.Proofs.Flags.Retention

/-!
# Both layouts resolve alike

The layout only says where the profiles stand, so profiles at the root of a flat document and in a
nested one resolve alike. It takes part in the flags in one place: a retention section that leaves
its tags unset takes those of the backup section in a nested layout (`Config.layouts_alike`).
-/

namespace BackupProfiles

namespace Document

/-- The document of the flat layout with profiles at its root. -/
def flat (profiles : Mapping) : Document := ⟨profiles⟩

/-- The document of the nested layout with profiles under their key. -/
def nested (profiles : Mapping) : Document :=
  ⟨[(.string "version", .number (.int 2)), (.string "profiles", .mapping profiles)]⟩

end Document

namespace Profile

variable {p : Profile} {r : RetentionSection} {s : Surroundings} {rt : Runtime}

def LeavesTagsUnset (p : Profile) : Prop := ∃ r, p.retention? = some r ∧ r.tag = .unset

/-- Flags of the retention section in both layouts, where it leaves its tags unset. -/
structure TakesTags (p : Profile) (flat nested : Flags) : Prop where
  others : nested.erase "tag" = flat.erase "tag"
  own : flat.get? "tag" = p.commonFlags.get? "tag"
  taken : p.backupTags ≠ [] → nested.get? "tag" = some p.backupTags
  same : p.backupTags = [] → nested = flat

theorem retentionFlags_layout (h : ¬ p.LeavesTagsUnset) (s : Surroundings) (rt : Runtime)
    (layout : Layout) :
    p.retentionFlags s { rt with layout := layout } = p.retentionFlags s rt := by
  unfold retentionFlags
  rcases hr : p.retention? with _ | r
  · rfl
  · have htags : p.retentionTags? { rt with layout := layout } r = p.retentionTags? rt r := by
      unfold retentionTags?
      rcases ht : r.tag with _ | _ | _ | tags
      · exact absurd ⟨r, hr, ht⟩ h
      all_goals rfl
    simp only [htags]
    rfl

theorem takesTags_retentionFlags (hr : p.retention? = some r) (ht : r.tag = .unset)
    (hown : r.flags.get? "tag" = none) (s : Surroundings) (rt : Runtime) :
    p.TakesTags (p.retentionFlags s { rt with layout := .flat })
      (p.retentionFlags s { rt with layout := .nested }) := by
  have hflat : p.retentionTags? { rt with layout := .flat } r = none := by
    rw [retentionTags?, ht]
    rfl
  have hnested : p.retentionTags? { rt with layout := .nested } r = some p.backupTags := by
    rw [retentionTags?, ht]
    rfl
  refine ⟨?_, ?_, fun hne => ?_, fun hempty => ?_⟩
  · have hsection : ∀ rt : Runtime,
        "tag" ∉ (r.flags.sectionSettings rt "retention").map (·.1) := by
      intro rt
      rw [Table.sectionSettings, Table.settings, List.map_map]
      exact entryFor?_eq_none_iff.1 hown
    rw [retentionFlags_of_some _ _ hr, retentionFlags_of_some _ _ hr,
      addSection_eq_sectionSettings, addSection_eq_sectionSettings, Flags.erase_setAll (hsection _),
      Flags.erase_setAll (hsection _), Flags.erase_set_self, Flags.erase_set_self]
    rfl
  · rw [get?_retentionFlags_tag hr hown, hflat]
    rfl
  · rw [get?_retentionFlags_tag hr hown, hnested, Option.bind_some, FlagValue.emitted?,
      if_neg hne, Option.some_or]
  · rw [retentionFlags_of_some _ _ hr, retentionFlags_of_some _ _ hr, hflat, hnested, hempty]
    rfl

theorem commandFlags_of_retention (s : Surroundings) {command : String}
    (hk : rt.table.kindOf? command = some .retention) :
    p.commandFlags s rt command = p.retentionFlags s rt := by
  unfold commandFlags
  rw [hk]

theorem commandFlags_layout (s : Surroundings) (rt : Runtime) (layout : Layout)
    (command : String)
    (h : rt.table.kindOf? command = some .retention → ¬ p.LeavesTagsUnset) :
    p.commandFlags s { rt with layout := layout } command = p.commandFlags s rt command := by
  unfold commandFlags
  dsimp only
  rcases hk : rt.table.kindOf? command with _ | kind
  · rfl
  · cases kind with
    | retention => exact retentionFlags_layout (h hk) s rt layout
    | _ => rfl

end Profile

namespace Config

variable {profiles : Mapping}

theorem resolve_congr {c c' : Config} (hp : c.profiles = c'.profiles) (ht : c.table = c'.table)
    (hf : c.file = c'.file) (s : Surroundings) (name : String) :
    c.resolve s name = c'.resolve s name := by
  unfold resolve rootFolder
  rw [hp, ht, hf]

theorem layout_flat (h : profiles.get? (.string "version") = none) (file : String)
    (table : CommandTable) : layout ⟨file, .flat profiles, table⟩ = .flat := by
  rw [layout, Document.get?_version]
  simp only [Document.flat, h]
  rfl

theorem layout_nested (profiles : Mapping) (file : String) (table : CommandTable) :
    layout ⟨file, .nested profiles, table⟩ = .nested := by
  rw [layout, Document.get?_version]
  rfl

/-- Both layouts resolve alike. Profiles without a key for the version, at the root of a flat
document and under their key in a nested one, come to the same error or the same profile, with the
same issues. The flags of a profile are the same too, in the same order, with one exception: a
retention section that leaves its tags unset takes those of the backup section in the nested
layout. -/
theorem layouts_alike (h : profiles.get? (.string "version") = none) (file : String)
    (table : CommandTable) :
    let flat : Config := ⟨file, .flat profiles, table⟩
    let nested : Config := ⟨file, .nested profiles, table⟩
    (∀ s name, flat.resolve s name = nested.resolve s name) ∧
    ∀ s name p, (flat.resolve s name).result = .ok p →
      ∀ (s' : Surroundings) (host? : Option String) (version? : Option ToolVersion),
        let rt := { flat.runtime with host? := host?, version? := version? }
        let rt' := { nested.runtime with host? := host?, version? := version? }
        p.copyInitFlags? rt = p.copyInitFlags? rt' ∧
        (∀ command, p.commandChanges s' rt command = p.commandChanges s' rt' command) ∧
        (∀ command, (table.kindOf? command = some .retention → ¬ p.LeavesTagsUnset) →
          p.commandFlags s' rt command = p.commandFlags s' rt' command) ∧
        (∀ command, table.kindOf? command = some .retention → p.LeavesTagsUnset →
          p.TakesTags (p.commandFlags s' rt command) (p.commandFlags s' rt' command)) ∧
        (¬ p.LeavesTagsUnset → p.retentionFlags s' rt = p.retentionFlags s' rt') ∧
        (p.LeavesTagsUnset → p.TakesTags (p.retentionFlags s' rt) (p.retentionFlags s' rt')) := by
  intro flat nested
  have hlayout : flat.layout = .flat := layout_flat h file table
  have hlayout' : nested.layout = .nested := layout_nested profiles file table
  have hresolve : ∀ s name, flat.resolve s name = nested.resolve s name := by
    refine resolve_congr ?_ rfl rfl
    rw [profiles_of_flat hlayout, profiles_of_nested hlayout']
    rfl
  refine ⟨hresolve, fun s name p hp s' host? version? => ?_⟩
  let base : Runtime := ⟨.flat, table, file, host?, version?⟩
  have hrt : { flat.runtime with host? := host?, version? := version? } =
      { base with layout := .flat } := by
    rw [runtime, hlayout]
  have hrt' : { nested.runtime with host? := host?, version? := version? } =
      { base with layout := .nested } := by
    rw [runtime, hlayout']
  have htakes : p.LeavesTagsUnset →
      p.TakesTags (p.retentionFlags s' { base with layout := .flat })
        (p.retentionFlags s' { base with layout := .nested }) := by
    rintro ⟨r, hr, ht⟩
    exact Profile.takesTags_retentionFlags hr ht (get?_retention_flags hp hr (by decide)) s' base
  simp only [hrt, hrt']
  refine ⟨rfl, fun _ => rfl, fun command hc => ?_, fun command hk hunset => ?_, fun hset => ?_,
    htakes⟩
  · rw [Profile.commandFlags_layout s' base .flat command hc,
      Profile.commandFlags_layout s' base .nested command hc]
  · rw [Profile.commandFlags_of_retention s' hk, Profile.commandFlags_of_retention s' hk]
    exact htakes hunset
  · rw [Profile.retentionFlags_layout hset s' base .flat,
      Profile.retentionFlags_layout hset s' base .nested]

def taggedBody : Mapping := [
  (.string "backup", .mapping [(.string "tag", .string "x")]),
  (.string "retention", .mapping [])]

/-- A profile with a tag for backups and none for the retention. -/
def tagged : Mapping := [(.string "a", .mapping taggedBody)]

theorem mergedBody_tagged : mergedBody tagged "a" = .ok taggedBody := by
  rw [mergedBody, ancestry, ancestryFrom_last (by decide) rfl rfl (by decide)]
  exact toOption_eq_some.1 (by decide +kernel)

theorem layouts_alike_tagged : tagged.get? (.string "version") = none ∧
    let flat : Config := ⟨"", .flat tagged, .builtin⟩
    let nested : Config := ⟨"", .nested tagged, .builtin⟩
    ∃ p, (flat.resolve default "a").result = .ok p ∧ (nested.resolve default "a").result = .ok p ∧
      (p.retentionFlags default flat.runtime).get? "tag" = none ∧
      (p.retentionFlags default nested.runtime).get? "tag" = some ["x"] := by
  have hversion : tagged.get? (.string "version") = none := by decide
  refine ⟨hversion, ?_⟩
  intro flat nested
  obtain ⟨hresolve, hflags⟩ := layouts_alike hversion "" .builtin
  have hprofiles : flat.profiles = tagged := profiles_of_flat (layout_flat hversion "" .builtin)
  have hmerged : mergedBody flat.profiles "a" = .ok taggedBody := by
    rw [hprofiles, mergedBody_tagged]
  have hp : ∃ p, (flat.resolve default "a").result = .ok p := by
    rw [resolve_of_mergedBody hmerged]
    exact ⟨_, rfl⟩
  obtain ⟨p, hp⟩ := hp
  have hparts := hp
  rw [resolve_of_mergedBody hmerged] at hparts
  have hunset : p.LeavesTagsUnset := by
    refine ⟨RetentionSection.ofEntries [], ?_, rfl⟩
    rw [← Except.ok.inj hparts]
    rfl
  have htags : p.backupTags = ["x"] := by
    rw [← Except.ok.inj hparts]
    rfl
  have hcommon : p.commonFlags.get? "tag" = none := by
    rw [← Except.ok.inj hparts]
    rfl
  obtain ⟨-, -, -, -, -, htakes⟩ := hflags default "a" p hp default none none
  refine ⟨p, hp, hresolve default "a" ▸ hp, ?_, ?_⟩
  · exact (htakes hunset).own.trans hcommon
  · exact ((htakes hunset).taken (by simp [htags])).trans (congrArg some htags)

end Config

end BackupProfiles
