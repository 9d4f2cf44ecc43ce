import BackupProfiles.Proofs.Flags.Repository

/-!
# Copies keep two repositories apart

A copy reads from the repository of the profile and writes to that of its section. Each setting of
either is written once, under the name that the release of the tool has for it, and nothing stands
under the secondary name of other releases (`separates_repositories`). Where the destination has the
plain names, nothing of the profile gets under them, whatever flags the document adds to the profile
(`get?_destination_congr`): renaming has cleared them.
-/

namespace BackupProfiles

/-- No flag of a table has a name that a repository flag can get. -/
def Table.Spares (t : Table FlagValue) (r : String) : Prop :=
  t.get? r = none ∧ t.get? ("from-" ++ r) = none ∧ t.get? (r ++ "2") = none

namespace Flags

/-- A text stands once under a name, and an empty one does not stand there. -/
def WritesOnce (f : Flags) (name text : String) : Prop :=
  f.emissions name = if text = "" then [] else [[text]]

/-- One setting stands under its own name, another under the secondary one, and nothing under the
secondary name of the releases that have a different one. -/
structure Separates (f : Flags) (r : String) (sources : Bool) (own secondary : String) : Prop where
  own : f.WritesOnce r own
  secondary : f.WritesOnce (secondaryName sources r) secondary
  neither : f.emissions (secondaryName (!sources) r) = []

end Flags

/-- What the plain name of a repository flag stands for where it is that of the copy section. -/
def CopySection.destination? (c : CopySection) (r : String) : Option (List String) :=
  ((c.flags.get? r).bind FlagValue.emitted?).or (c.access.written? r)

variable {f : Flags} {p q : Profile} {c : CopySection} {i : InitSection} {rt : Runtime}
  {r : String} {sources : Bool}

theorem Table.Spares.secondary {t : Table FlagValue} (h : t.Spares r) :
    ∀ sources : Bool, t.get? (secondaryName sources r) = none
  | true => h.2.1
  | false => h.2.2

namespace Flags

theorem writesOnce_of_get? (hf : f.Distinct) {name text : String}
    (h : f.get? name = (FlagValue.text text).emitted?) : f.WritesOnce name text := by
  rw [WritesOnce, emissions_eq hf, h, FlagValue.emitted?]
  split <;> rfl

theorem separates_of_get? {own secondary : String} (hf : f.Distinct)
    (ho : f.get? r = (FlagValue.text own).emitted?)
    (hs : f.get? (secondaryName sources r) = (FlagValue.text secondary).emitted?)
    (hn : f.get? (secondaryName (!sources) r) = none) : f.Separates r sources own secondary where
  own := writesOnce_of_get? hf ho
  secondary := writesOnce_of_get? hf hs
  neither := by rw [emissions_eq hf, hn, Option.toList_none]

end Flags

open Flags RepositoryAccess

namespace Profile

theorem entryFor?_commonSettings (p : Profile) (hr : r ∈ RepositoryAccess.names) :
    entryFor? p.commonSettings r = some (p.access.written? r) := by
  refine entryFor?_of_mem ?_ ?_
  · rw [names_commonSettings]
    decide
  · exact List.mem_append_left _ (List.mem_append_right _ (mem_settings id p.access hr))

theorem entryFor?_commonSettings_secondary (p : Profile) (sources : Bool)
    (hr : r ∈ RepositoryAccess.names) :
    entryFor? p.commonSettings (secondaryName sources r) = none := by
  refine entryFor?_eq_none_iff.2 ?_
  rw [names_commonSettings]
  revert r
  revert sources
  decide

theorem get?_commonFlags_plain (hr : r ∈ RepositoryAccess.names) (hp : p.flags.Spares r) :
    p.commonFlags.get? r = p.access.written? r := by
  rw [get?_commonFlags, hp.1, entryFor?_commonSettings p hr]
  rfl

theorem get?_commonFlags_secondary (hr : r ∈ RepositoryAccess.names) (hp : p.flags.Spares r)
    (sources : Bool) : p.commonFlags.get? (secondaryName sources r) = none := by
  rw [get?_commonFlags, hp.secondary, entryFor?_commonSettings_secondary p sources hr]
  rfl

theorem get?_renamed_secondary (hr : r ∈ RepositoryAccess.names) (hp : p.flags.Spares r)
    (sources : Bool) :
    (p.commonFlags.renameRepository sources).get? (secondaryName sources r) =
      p.access.written? r := by
  rw [get?_renameRepository_secondary p.distinct_commonFlags _ hr, get?_commonFlags_plain hr hp,
    get?_commonFlags_secondary hr hp, Option.or_none]

theorem get?_renamed_neither (hr : r ∈ RepositoryAccess.names) (hp : p.flags.Spares r)
    (sources : Bool) :
    (p.commonFlags.renameRepository sources).get? (secondaryName (!sources) r) = none := by
  rw [get?_renameRepository_of_notMem p.distinct_commonFlags (secondaryName_notMem _ hr)
    (secondaryName_not_notMem sources hr), get?_commonFlags_secondary hr hp]

theorem commandFlags_of_copy (s : Surroundings) {command : String}
    (hk : rt.table.kindOf? command = some .copy) (hc : p.copy? = some c) :
    p.commandFlags s rt command = addCopyFlags rt p.commonFlags c := by
  simp only [commandFlags, hk, hc, Option.elim_some]

theorem commandFlags_of_init (s : Surroundings) {command : String}
    (hk : rt.table.kindOf? command = some .init) (hi : p.init? = some i) :
    p.commandFlags s rt command = addInitFlags rt p.commonFlags i := by
  simp only [commandFlags, hk, hi, Option.elim_some]

end Profile

/-- Settings of the copy section under their plain names, over flags that do not have the name. -/
theorem get?_destination (hr : r ∈ RepositoryAccess.names) (hf : f.get? r = none) (rt : Runtime)
    (c : CopySection) :
    ((c.access.addTo id f).addSection rt "copy" c.flags).get? r = c.destination? r := by
  have hs : sectionValues? rt (rt.table.supportsHost "copy") r = FlagValue.emitted? :=
    funext fun v => sectionValues?_of_ne (ne_host_of_mem_names hr) _ v
  have ha := get?_addTo Function.injective_id c.access f hr
  rw [id_eq, hf, Option.or_none] at ha
  rw [get?_addSection, hs, ha, CopySection.destination?]

/-- Settings under their plain names leave the secondary names alone. -/
theorem get?_addTo_id_secondary (a : RepositoryAccess) (f : Flags) (sources : Bool)
    (hr : r ∈ RepositoryAccess.names) :
    (a.addTo id f).get? (secondaryName sources r) = f.get? (secondaryName sources r) := by
  refine get?_addTo_of_notMem Function.injective_id a f ?_
  rw [List.map_id]
  exact secondaryName_notMem sources hr

theorem destination?_of_spares (hc : c.flags.Spares r) :
    c.destination? r = c.access.written? r := by
  rw [CopySection.destination?, hc.1]
  rfl

namespace Profile

theorem addCopyFlags_of_sources (h : rt.usesSourceFlags = true) (f : Flags) (c : CopySection) :
    addCopyFlags rt f c =
      (c.access.addTo id (f.renameRepository true)).addSection rt "copy" c.flags := by
  rw [addCopyFlags, h]
  rfl

theorem addCopyFlags_of_no_sources (h : rt.usesSourceFlags = false) (f : Flags) (c : CopySection) :
    addCopyFlags rt f c =
      (c.access.addTo (secondaryName false) f).addSection rt "copy" c.flags := by
  rw [addCopyFlags, h]
  rfl

/-- The flags that create the destination: over those of the copy section come those of the profile
under secondary names, and the chunker parameters are copied whatever the document says. -/
theorem copyInitFlags?_of_copy (rt : Runtime) (hc : p.copy? = some c) :
    ∃ flags, p.copyInitFlags? rt = some flags ∧ flags.Distinct ∧
      flags.get? "copy-chunker-params" = some [] ∧
      ∀ name ≠ "copy-chunker-params", flags.get? name =
        ((p.commonFlags.renameRepository rt.usesSourceFlags).get? name).or
          (((c.access.addTo id Flags.empty).addSection rt "copy" c.flags).get? name) := by
  have hd := distinct_renameRepository p.distinct_commonFlags rt.usesSourceFlags
  refine ⟨_, by rw [copyInitFlags?, hc, Option.map_some], ?_, ?_, fun name hname => ?_⟩
  · exact distinct_add (distinct_extend
      (distinct_addSection (distinct_addTo distinct_empty _ _) _ _) _) _ _
  · rw [get?_add, if_pos rfl]
  · rw [get?_add, if_neg hname.symm, get?_extend hd]

section Separates

variable (s : Surroundings) {command : String}

/-- Settings under secondary names go beside those of the profile, if nothing changes either
after them. -/
theorem separates_of_second {a : RepositoryAccess} (hr : r ∈ RepositoryAccess.names)
    (hp : p.flags.Spares r) (hf : f.Distinct)
    (hown : f.get? r = (a.addTo (secondaryName sources) p.commonFlags).get? r)
    (hsecond : ∀ b, f.get? (secondaryName b r) =
      (a.addTo (secondaryName sources) p.commonFlags).get? (secondaryName b r)) :
    f.Separates r sources (p.access.text r) (a.text r) := by
  have hi := secondaryName_injective sources
  refine separates_of_get? hf ?_ ?_ ?_
  · rw [hown, get?_addTo_of_notMem hi _ _ (notMem_secondaryNames _ hr),
      get?_commonFlags_plain hr hp]
    rfl
  · rw [hsecond, get?_addTo hi _ _ hr, get?_commonFlags_secondary hr hp, Option.or_none]
    rfl
  · rw [hsecond, get?_addTo_of_notMem hi _ _ (secondaryName_not_notMem _ hr),
      get?_commonFlags_secondary hr hp]

theorem separates_addCopyFlags_of_sources (hr : r ∈ RepositoryAccess.names)
    (hp : p.flags.Spares r) (hcf : c.flags.Spares r) (hv : rt.usesSourceFlags = true) :
    (addCopyFlags rt p.commonFlags c).Separates r true (c.access.text r) (p.access.text r) := by
  have hplain := get?_renameRepository_plain p.distinct_commonFlags true hr
  have hd := distinct_renameRepository p.distinct_commonFlags true
  rw [addCopyFlags_of_sources hv]
  refine separates_of_get? (distinct_addSection (distinct_addTo hd _ _) _ _) ?_ ?_ ?_
  · rw [get?_destination hr hplain, destination?_of_spares hcf]
    rfl
  · rw [get?_addSection_of_none _ (hcf.secondary true), get?_addTo_id_secondary _ _ _ hr,
      get?_renamed_secondary hr hp]
    rfl
  · rw [get?_addSection_of_none _ (hcf.secondary _), get?_addTo_id_secondary _ _ _ hr,
      get?_renamed_neither hr hp]

theorem separates_addCopyFlags_of_no_sources (hr : r ∈ RepositoryAccess.names)
    (hp : p.flags.Spares r) (hcf : c.flags.Spares r) (hv : rt.usesSourceFlags = false) :
    (addCopyFlags rt p.commonFlags c).Separates r false (p.access.text r) (c.access.text r) := by
  rw [addCopyFlags_of_no_sources hv]
  exact separates_of_second hr hp
    (distinct_addSection (distinct_addTo p.distinct_commonFlags _ _) _ _)
    (get?_addSection_of_none _ hcf.1) fun b => get?_addSection_of_none _ (hcf.secondary b)

theorem separates_copy (hr : r ∈ RepositoryAccess.names) (hc : p.copy? = some c)
    (hp : p.flags.Spares r) (hcf : c.flags.Spares r)
    (hk : rt.table.kindOf? command = some .copy) :
    if rt.usesSourceFlags then
      (p.commandFlags s rt command).Separates r true (c.access.text r) (p.access.text r)
    else (p.commandFlags s rt command).Separates r false (p.access.text r) (c.access.text r) := by
  rw [commandFlags_of_copy s hk hc]
  split
  · rename_i hv
    exact separates_addCopyFlags_of_sources hr hp hcf hv
  · rename_i hv
    exact separates_addCopyFlags_of_no_sources hr hp hcf (by simpa using hv)

theorem separates_copyInit (rt : Runtime) (hr : r ∈ RepositoryAccess.names)
    (hc : p.copy? = some c) (hp : p.flags.Spares r) (hcf : c.flags.Spares r) :
    ∃ flags, p.copyInitFlags? rt = some flags ∧
      flags.Separates r rt.usesSourceFlags (c.access.text r) (p.access.text r) ∧
      flags.emissions "copy-chunker-params" = [[]] := by
  obtain ⟨flags, hf, hd, hchunker, hget⟩ := copyInitFlags?_of_copy rt hc
  have hsection : ∀ sources, ((c.access.addTo id Flags.empty).addSection rt "copy" c.flags).get?
      (secondaryName sources r) = none := by
    intro sources
    rw [get?_addSection_of_none _ (hcf.secondary sources), get?_addTo_id_secondary _ _ _ hr,
      get?_empty]
  refine ⟨flags, hf, separates_of_get? hd ?_ ?_ ?_, ?_⟩
  · rw [hget r (ne_copyChunkerParams hr).symm, get?_renameRepository_plain p.distinct_commonFlags _ hr, Option.none_or,
      get?_destination hr (get?_empty r), destination?_of_spares hcf]
    rfl
  · rw [hget _ (secondaryName_ne_copyChunkerParams _ hr).symm, get?_renamed_secondary hr hp,
      hsection, Option.or_none]
    rfl
  · rw [hget _ (secondaryName_ne_copyChunkerParams _ hr).symm, get?_renamed_neither hr hp, hsection,
      Option.or_none]
  · rw [emissions_eq hd, hchunker, Option.toList_some]

theorem separates_init (hr : r ∈ RepositoryAccess.names) (hi : p.init? = some i)
    (hp : p.flags.Spares r) (hif : i.flags.Spares r)
    (hk : rt.table.kindOf? command = some .init) :
    (p.commandFlags s rt command).Separates r rt.usesSourceFlags (p.access.text r)
      (i.access.text r) := by
  rw [commandFlags_of_init s hk hi, addInitFlags, addSwitch, addValue_eq]
  refine separates_of_second hr hp (distinct_addSection
    (distinct_set (distinct_addTo p.distinct_commonFlags _ _) _ _) _ _) ?_ fun b => ?_
  · rw [get?_addSection_of_none _ hif.1, get?_set, if_neg (ne_copyChunkerParams hr)]
  · rw [get?_addSection_of_none _ (hif.secondary b), get?_set,
      if_neg (secondaryName_ne_copyChunkerParams b hr)]

end Separates

/-- A copy, the creation of its destination and the creation of a repository after another write
each setting of the two repositories once, under the names of their own repository. -/
theorem separates_repositories {p : Profile} {c : CopySection} {r : String}
    (hr : r ∈ RepositoryAccess.names) (hc : p.copy? = some c) (hp : p.flags.Spares r)
    (hcf : c.flags.Spares r) (rt : Runtime) :
    (∀ s command, rt.table.kindOf? command = some .copy →
      if rt.usesSourceFlags then
        (p.commandFlags s rt command).Separates r true (c.access.text r) (p.access.text r)
      else (p.commandFlags s rt command).Separates r false (p.access.text r) (c.access.text r)) ∧
    (∃ flags, p.copyInitFlags? rt = some flags ∧
      flags.Separates r rt.usesSourceFlags (c.access.text r) (p.access.text r) ∧
      flags.emissions "copy-chunker-params" = [[]]) ∧
    ∀ i ∈ p.init?, i.flags.Spares r → ∀ s command, rt.table.kindOf? command = some .init →
      (p.commandFlags s rt command).Separates r rt.usesSourceFlags (p.access.text r)
        (i.access.text r) :=
  ⟨fun s _ hk => separates_copy s hr hc hp hcf hk, separates_copyInit rt hr hc hp hcf,
    fun _ hi hif s _ hk => separates_init s hr hi hp hif hk⟩

/-- A profile with a copy section and an init section. -/
def threeRepositories : Profile :=
  { Profile.empty with
    repository := ⟨"/a"⟩
    copy? := some { CopySection.ofEntries [] with repository := ⟨"/b"⟩ }
    init? := some { InitSection.ofEntries [] with fromRepository := ⟨"/c"⟩ } }

theorem separates_threeRepositories :
    (∀ s, (threeRepositories.commandFlags s .initial "copy").WritesOnce "repo2" "/b") ∧
    (∃ flags, threeRepositories.copyInitFlags? .initial = some flags ∧
      flags.WritesOnce "repo" "/b" ∧ flags.WritesOnce "repo2" "/a") ∧
    ∀ s, (threeRepositories.commandFlags s .initial "init").WritesOnce "repo2" "/c" := by
  have hspares : ∀ r, (Table.empty : Table FlagValue).Spares r := fun r => ⟨rfl, rfl, rfl⟩
  obtain ⟨hcopy, ⟨flags, hf, hinit, -⟩, hnew⟩ := separates_repositories
    (p := threeRepositories) (r := "repo") (by decide) rfl (hspares _) (hspares _) .initial
  exact ⟨fun s => (hcopy s "copy" rfl).secondary, ⟨flags, hf, hinit.own, hinit.secondary⟩,
    fun s => (hnew _ rfl (hspares _) s "init" rfl).secondary⟩

theorem get?_copyInitFlags_plain (rt : Runtime) (hr : r ∈ RepositoryAccess.names)
    (hc : p.copy? = some c) :
    ∃ flags, p.copyInitFlags? rt = some flags ∧ flags.get? r = c.destination? r := by
  obtain ⟨flags, hf, -, -, hget⟩ := copyInitFlags?_of_copy rt hc
  refine ⟨flags, hf, ?_⟩
  rw [hget r (ne_copyChunkerParams hr).symm, get?_renameRepository_plain p.distinct_commonFlags _ hr, Option.none_or,
    get?_destination hr (get?_empty r)]

theorem get?_copyFlags_plain (s : Surroundings) (hr : r ∈ RepositoryAccess.names)
    (hc : p.copy? = some c) {command : String} (hk : rt.table.kindOf? command = some .copy)
    (hv : rt.usesSourceFlags = true) : (p.commandFlags s rt command).get? r = c.destination? r := by
  rw [commandFlags_of_copy s hk hc, addCopyFlags_of_sources hv,
    get?_destination hr (get?_renameRepository_plain p.distinct_commonFlags _ hr)]

/-- Two profiles with one copy section agree on every plain repository flag of the destination. -/
theorem get?_destination_congr {p q : Profile} {c : CopySection} {r : String}
    (hr : r ∈ RepositoryAccess.names) (hp : p.copy? = some c) (hq : q.copy? = some c)
    (rt rt' : Runtime) :
    (∃ flags flags', p.copyInitFlags? rt = some flags ∧ q.copyInitFlags? rt' = some flags' ∧
      flags.get? r = flags'.get? r) ∧
    ∀ s s' command, rt.table.kindOf? command = some .copy →
      rt'.table.kindOf? command = some .copy →
      rt.usesSourceFlags = true → rt'.usesSourceFlags = true →
      (p.commandFlags s rt command).get? r = (q.commandFlags s' rt' command).get? r := by
  obtain ⟨flags, hf, hget⟩ := get?_copyInitFlags_plain rt hr hp
  obtain ⟨flags', hf', hget'⟩ := get?_copyInitFlags_plain rt' hr hq
  refine ⟨⟨flags, flags', hf, hf', hget.trans hget'.symm⟩, fun s s' command hk hk' hv hv' => ?_⟩
  rw [get?_copyFlags_plain s hr hp hk hv, get?_copyFlags_plain s' hr hq hk' hv']

/-- The same copy section beside flags that are named like repository flags. -/
def disguisedRepositories : Profile :=
  { threeRepositories with
    repository := ⟨"/z"⟩
    flags := .ofList [("repo", .text "/y"), ("from-repo", .text "/x")] }

theorem get?_destination_disguised :
    (∃ flags flags', threeRepositories.copyInitFlags? .initial = some flags ∧
      disguisedRepositories.copyInitFlags? .initial = some flags' ∧
      flags.get? "repo" = flags'.get? "repo") ∧
    ∀ s, (threeRepositories.commandFlags s
        ⟨.flat, .builtin, "", none, some ⟨0, 14, 0⟩⟩ "copy").get? "repo" =
      (disguisedRepositories.commandFlags s
        ⟨.nested, .builtin, "", none, some ⟨0, 16, 2⟩⟩ "copy").get? "repo" :=
  ⟨(get?_destination_congr (by decide) rfl rfl .initial .initial).1, fun s =>
    (get?_destination_congr (by decide) rfl rfl _ _).2 s s "copy" rfl rfl (by decide) (by decide)⟩

end Profile

end BackupProfiles
