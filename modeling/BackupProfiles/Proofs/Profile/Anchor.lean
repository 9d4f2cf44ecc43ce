import BackupProfiles.Config
import BackupProfiles.Proofs.Path.Anchored
import BackupProfiles.Proofs.Table.Lookup

/-!
# Anchoring a profile again

Every file setting of a profile goes through one rewriting of texts, so anchoring a profile twice is
anchoring it once by both rewritings (`Profile.anchorWith_anchorWith`), and the second one changes
nothing if it changes no setting the first one comes to. That is so under an absolute root, and
under few relative ones (`Profile.anchor_twice_iff`): a configuration that is loaded from a folder
of its own is anchored deeper each time.
-/

namespace BackupProfiles

section Parts

variable (f g : Anchoring)

theorem FlagValue.mapText_mapText (v : FlagValue) :
    (v.mapText f).mapText g = v.mapText (g ∘ f) := by
  cases v <;> rfl

theorem anchorFlags_anchorFlags (flags : Table FlagValue) :
    anchorFlags g (anchorFlags f flags) = anchorFlags (g ∘ f) flags := by
  refine Table.ext_get? fun name => ?_
  simp only [anchorFlags, Table.get?_mapEntries, Option.map_map]
  congr 1
  funext v
  rw [Function.comp_apply]
  split
  · exact FlagValue.mapText_mapText f g v
  · rfl

theorem Hooks.anchor_anchor (h : Hooks) : (h.anchor f).anchor g = h.anchor (g ∘ f) := by
  simp only [anchor, map, List.map_map]
  rfl

theorem BackupSection.anchor_anchor (b : BackupSection) :
    (b.anchor f).anchor g = b.anchor (g ∘ f) := by
  simp only [anchor, List.map_map, Hooks.anchor_anchor, anchorFlags_anchorFlags]

theorem RetentionSection.anchor_anchor (r : RetentionSection) :
    (r.anchor f).anchor g = r.anchor (g ∘ f) := by
  simp only [anchor, anchorFlags_anchorFlags]

theorem ScheduledSection.anchor_anchor (s : ScheduledSection) :
    (s.anchor f).anchor g = s.anchor (g ∘ f) := by
  simp only [anchor, Hooks.anchor_anchor, anchorFlags_anchorFlags]

theorem CopySection.anchor_anchor (c : CopySection) :
    (c.anchor f).anchor g = c.anchor (g ∘ f) := by
  simp only [anchor, Hooks.anchor_anchor, anchorFlags_anchorFlags]
  rfl

theorem InitSection.anchor_anchor (i : InitSection) :
    (i.anchor f).anchor g = i.anchor (g ∘ f) := by
  simp only [anchor, anchorFlags_anchorFlags]
  rfl

theorem GenericSection.anchor_anchor (s : GenericSection) :
    (s.anchor f).anchor g = s.anchor (g ∘ f) := by
  simp only [anchor, anchorFlags_anchorFlags]

end Parts

namespace Profile

/-- Anchoring by one rewriting of settings and then by another is anchoring by both. -/
theorem anchorWith_anchorWith (f g : Anchoring) (p : Profile) :
    (p.anchorWith f).anchorWith g = p.anchorWith (g ∘ f) := by
  have hgeneric : (p.generic.map fun s? => s?.map (·.anchor f)).map
      (fun s? => s?.map (·.anchor g)) = p.generic.map fun s? => s?.map (·.anchor (g ∘ f)) := by
    refine Table.ext_get? fun name => ?_
    simp only [Table.get?_map, Option.map_map, Function.comp_def, GenericSection.anchor_anchor]
  simp only [anchorWith, hgeneric, Option.map_map, Function.comp_def, anchorFlags_anchorFlags,
    BackupSection.anchor_anchor, RetentionSection.anchor_anchor, ScheduledSection.anchor_anchor,
    CopySection.anchor_anchor, InitSection.anchor_anchor]
  rfl

theorem anchorWith_twice {f : Anchoring} (hf : ∀ setting, f (f setting) = f setting)
    (p : Profile) : (p.anchorWith f).anchorWith f = p.anchorWith f := by
  rw [anchorWith_anchorWith, show f ∘ f = f from funext hf]

/-- Anchoring profiles twice under a root is anchoring them once, for all of them, exactly if the
root is absolute, or leads as often up as into a folder. In the latter case, where it leads nowhere,
there may be no home folder either: then a file named like the home sign would be taken for it. -/
theorem anchor_twice_iff {home? : Option String} {root : String}
    (hh : ∀ home ∈ home?, Path.isAbsoluteText home = true) :
    (∀ p : Profile, (p.anchor home? root).anchor home? root = p.anchor home? root) ↔
      Path.isAbsoluteText root = true ∨ (Path.depth (Path.ofText root).steps = 0 ∧
        ((Path.ofText root).clean.steps = [] → home? = none)) := by
  rw [← Path.anchored_twice_iff hh]
  constructor
  · -- the lock file of a profile may be any setting
    intro h setting
    exact congrArg Profile.lock (h { (default : Profile) with lock := setting })
  · exact fun h => anchorWith_twice h

theorem anchor_twice_iff_above :
    (∀ p : Profile, (p.anchor (some "/home/u") "../conf").anchor (some "/home/u") "../conf" =
      p.anchor (some "/home/u") "../conf") ∧
    ¬ ∀ p : Profile, (p.anchor (some "/home/u") ".").anchor (some "/home/u") "." =
      p.anchor (some "/home/u") "." := by
  have hhome : ∀ home ∈ some "/home/u", Path.isAbsoluteText home = true := by
    intro home hhome
    rw [← Option.mem_some.1 hhome]
    decide
  refine ⟨(anchor_twice_iff hhome).2 (Or.inr (by decide)), fun h => ?_⟩
  rcases (anchor_twice_iff hhome).1 h with habsolute | ⟨-, hhere⟩
  · exact absurd habsolute (by decide)
  · exact absurd (hhere (by decide)) (by simp)

/-- The root of a configuration that is loaded as a file in a folder is the folder, and a profile is
not the same when it is anchored there again. -/
theorem anchor_conf_twice : (Config.ofDocument ⟨[]⟩ "conf/profiles.json").rootFolder = "conf" ∧
    let p := { (default : Profile) with lock := "run.lock" }
    (p.anchor none "conf").lock = "conf/run.lock" ∧
    ((p.anchor none "conf").anchor none "conf").lock = "conf/conf/run.lock" ∧
    (p.anchor none "conf").anchor none "conf" ≠ p.anchor none "conf" := by
  refine ⟨by decide, by decide, by decide, fun h => ?_⟩
  have hlock := congrArg Profile.lock h
  exact absurd hlock (by decide)

end Profile

end BackupProfiles
