import BackupProfiles.Profile.Retention
import BackupProfiles.Proofs.Flags.Settings

/-!
# Source and destination

Two repositories share one list of flags, so the flags of one of them go under secondary names.
Renaming moves what the first names stand for to the secondary ones, and leaves nothing behind, also
where both are there (`get?_renameRepository_plain`, `get?_renameRepository_secondary`).
-/

namespace BackupProfiles

open Flags

namespace RepositoryAccess

/-- The setting of a flag. -/
def text (a : RepositoryAccess) : String → String
  | "key-hint" => a.keyHint
  | "repo" => a.repository
  | "repository-file" => a.repositoryFile
  | "password-file" => a.passwordFile
  | "password-command" => a.passwordCommand
  | _ => ""

/-- What a flag of the repository writes, nothing if it is empty. -/
def written? (a : RepositoryAccess) (r : String) : Option (List String) :=
  (FlagValue.text (a.text r)).emitted?

end RepositoryAccess

variable {f : Flags} {rename : String → String} {r name : String} {sources : Bool}

namespace RepositoryAccess

theorem nodup_names : names.Nodup := by decide

theorem ne_host_of_mem_names (hr : r ∈ names) : r ≠ "host" := by
  revert r
  decide

theorem secondaryName_notMem (sources : Bool) (hr : r ∈ names) :
    secondaryName sources r ∉ names := by
  revert r
  revert sources
  decide

theorem secondaryName_not_notMem (sources : Bool) (hr : r ∈ names) :
    secondaryName (!sources) r ∉ names.map (secondaryName sources) := by
  revert r
  revert sources
  decide

theorem notMem_secondaryNames (sources : Bool) (hr : r ∈ names) :
    r ∉ names.map (secondaryName sources) := by
  revert r
  revert sources
  decide

theorem secondaryName_injective (sources : Bool) : Function.Injective (secondaryName sources) := by
  intro r s h
  cases sources
  · simpa [secondaryName] using h
  · simpa [secondaryName] using h

theorem secondaryName_ne_copyChunkerParams (sources : Bool) (hr : r ∈ names) :
    "copy-chunker-params" ≠ secondaryName sources r := by
  revert r
  revert sources
  decide

theorem ne_copyChunkerParams (hr : r ∈ names) : "copy-chunker-params" ≠ r := by
  revert r
  decide

theorem names_settings (rename : String → String) (a : RepositoryAccess) :
    (a.settings rename).map (·.1) = names.map rename := rfl

theorem nodup_settings (hi : Function.Injective rename) (a : RepositoryAccess) :
    ((a.settings rename).map (·.1)).Nodup := by
  rw [names_settings]
  exact nodup_names.map hi

theorem mem_settings (rename : String → String) (a : RepositoryAccess) (hr : r ∈ names) :
    (rename r, a.written? r) ∈ a.settings rename := by
  simp only [names, List.mem_cons, List.not_mem_nil, or_false] at hr
  rcases hr with rfl | rfl | rfl | rfl | rfl <;> simp [settings, names, values, written?, text]

theorem entryFor?_settings (hi : Function.Injective rename) (a : RepositoryAccess)
    (hr : r ∈ names) : entryFor? (a.settings rename) (rename r) = some (a.written? r) :=
  entryFor?_of_mem (nodup_settings hi a) (mem_settings rename a hr)

theorem get?_addTo (hi : Function.Injective rename) (a : RepositoryAccess) (f : Flags)
    (hr : r ∈ names) :
    (a.addTo rename f).get? (rename r) = (a.written? r).or (f.get? (rename r)) := by
  rw [addTo_eq, get?_setAll (nodup_settings hi a), entryFor?_settings hi a hr]
  rfl

theorem get?_addTo_of_notMem (hi : Function.Injective rename) (a : RepositoryAccess) (f : Flags)
    (hn : name ∉ names.map rename) : (a.addTo rename f).get? name = f.get? name := by
  rw [addTo_eq, get?_setAll (nodup_settings hi a), entryFor?_eq_none_iff.2 hn]
  rfl

end RepositoryAccess

namespace Flags

/-- Renames some names. -/
def renameAll (rename : String → String) (f : Flags) (rs : List String) : Flags :=
  rs.foldl (fun f r => f.rename r (rename r)) f

theorem renameAll_cons (rename : String → String) (f : Flags) (r : String) (rs : List String) :
    renameAll rename f (r :: rs) = renameAll rename (f.rename r (rename r)) rs := rfl

theorem distinct_renameAll (hf : f.Distinct) (rename : String → String) (rs : List String) :
    (renameAll rename f rs).Distinct := by
  induction rs generalizing f with
  | nil => exact hf
  | cons r rs ih =>
    rw [renameAll_cons]
    exact ih (distinct_rename hf r (rename r))

theorem get?_renameAll_of_notMem (hf : f.Distinct) {rs : List String} (hn : name ∉ rs)
    (ht : name ∉ rs.map rename) :
    (renameAll rename f rs).get? name = f.get? name := by
  induction rs generalizing f with
  | nil => rfl
  | cons r rs ih =>
    rw [List.mem_cons, not_or] at hn
    rw [List.map_cons, List.mem_cons, not_or] at ht
    rw [renameAll_cons, ih (distinct_rename hf _ _) hn.2 ht.2,
      get?_rename_of_ne hf (Ne.symm hn.1) (Ne.symm ht.1)]

/-- No renamed name is left, as long as no new name is one of those to rename. -/
theorem get?_renameAll_plain (hf : f.Distinct) {rs : List String}
    (hd : ∀ s ∈ rs, s ∉ rs.map rename) (hr : r ∈ rs) : (renameAll rename f rs).get? r = none := by
  induction rs generalizing f with
  | nil => simp at hr
  | cons s rs ih =>
    have hrest : ∀ t ∈ rs, t ∉ rs.map rename := fun t ht h =>
      hd t (List.mem_cons_of_mem _ ht) (List.mem_cons_of_mem _ h)
    rw [renameAll_cons]
    by_cases hmem : r ∈ rs
    · exact ih (distinct_rename hf _ _) hrest hmem
    · have hs : s = r := ((List.mem_cons.1 hr).resolve_right hmem).symm
      have hnew := hd r hr
      rw [List.map_cons, List.mem_cons, not_or] at hnew
      subst hs
      rw [get?_renameAll_of_notMem (distinct_rename hf _ _) hmem hnew.2, get?_rename hf hnew.1,
        if_pos rfl]

theorem get?_renameAll_new (hf : f.Distinct) {rs : List String} (hi : Function.Injective rename)
    (hn : rs.Nodup) (hd : ∀ s ∈ rs, s ∉ rs.map rename) (hr : r ∈ rs) :
    (renameAll rename f rs).get? (rename r) = (f.get? r).or (f.get? (rename r)) := by
  induction rs generalizing f with
  | nil => simp at hr
  | cons s rs ih =>
    have hrest : ∀ t ∈ rs, t ∉ rs.map rename := fun t ht h =>
      hd t (List.mem_cons_of_mem _ ht) (List.mem_cons_of_mem _ h)
    have hold : rename r ∉ s :: rs := fun h => hd _ h (List.mem_map_of_mem hr)
    rw [List.mem_cons, not_or] at hold
    rw [List.nodup_cons] at hn
    rw [renameAll_cons]
    rcases List.mem_cons.1 hr with rfl | hmem
    · have hnew : rename r ∉ rs.map rename := fun h => hn.1 ((List.mem_map_of_injective hi).1 h)
      have hne : r ≠ rename r := Ne.symm hold.1
      rw [get?_renameAll_of_notMem (distinct_rename hf _ _) hold.2 hnew, get?_rename hf hne,
        if_neg hne, if_pos rfl]
    · have hne : s ≠ r := fun h => hn.1 (h ▸ hmem)
      have hsr : rename s ≠ r := fun h =>
        hd r hr (h ▸ List.mem_map_of_mem (List.mem_cons_self (a := s) (l := rs)))
      rw [ih (distinct_rename hf _ _) hn.2 hrest hmem, get?_rename_of_ne hf hne hsr,
        get?_rename_of_ne hf (Ne.symm hold.1) (hi.ne hne)]

theorem distinct_renameRepository (hf : f.Distinct) (sources : Bool) :
    (f.renameRepository sources).Distinct :=
  distinct_renameAll hf _ _

theorem get?_renameRepository_plain (hf : f.Distinct) (sources : Bool)
    (hr : r ∈ RepositoryAccess.names) : (f.renameRepository sources).get? r = none :=
  get?_renameAll_plain hf (fun _ => RepositoryAccess.notMem_secondaryNames sources) hr

theorem get?_renameRepository_secondary (hf : f.Distinct) (sources : Bool)
    (hr : r ∈ RepositoryAccess.names) :
    (f.renameRepository sources).get? (secondaryName sources r) =
      (f.get? r).or (f.get? (secondaryName sources r)) :=
  get?_renameAll_new hf (RepositoryAccess.secondaryName_injective sources)
    RepositoryAccess.nodup_names (fun _ => RepositoryAccess.notMem_secondaryNames sources) hr

theorem get?_renameRepository_of_notMem (hf : f.Distinct) (hn : name ∉ RepositoryAccess.names)
    (ht : name ∉ RepositoryAccess.names.map (secondaryName sources)) :
    (f.renameRepository sources).get? name = f.get? name :=
  get?_renameAll_of_notMem hf hn ht

end Flags

end BackupProfiles
