import BackupProfiles.Proofs.Containment.Merge
import BackupProfiles.Proofs.Flags.Derivation

/-!
# What the host and the version of the tool decide

Flags depend on the name of the host and on the version of the tool besides the profile. Two states
of these give flags that are alike (`Flags.Alike`): the same names in the same order with the same
values, but for the values of the host, and but for the names of repository flags where the two
versions name them differently. Every operation on flags keeps alike flags alike, and a derivation
is a run of such operations (`Profile.alike_commandFlags`, `Profile.alike_copyInitFlags`). What the
host stands for is known on either side, so the flags are equal where it is the same
(`Profile.derive?_of_states`).
-/

namespace BackupProfiles

open Flags

namespace Flags

/-- The flags without some names. -/
def outside (held : List String) (f : Flags) : Flags := ⟨f.entries.filter fun e => e.1 ∉ held⟩

/-- Outside of some names the same names in the same order, with the same values but for the
host. -/
def Alike (held : List String) (f g : Flags) : Prop :=
  AgreeBut "host" (f.outside held).entries (g.outside held).entries

variable {held : List String} {f g : Flags} {name source target : String}

theorem outside_nil (f : Flags) : f.outside [] = f := by
  rw [outside, List.filter_eq_self.2 fun _ _ => by simp]

theorem distinct_outside (hf : f.Distinct) (held : List String) : (f.outside held).Distinct :=
  hf.sublist (List.filter_sublist.map _)

theorem get?_outside (hn : name ∉ held) (f : Flags) : (f.outside held).get? name = f.get? name := by
  have hfilter := entryFor?_filter (fun n => n ∉ held) f.entries name
  rw [if_pos (by simpa using hn)] at hfilter
  exact hfilter

theorem outside_add (held : List String) (f : Flags) (name : String) (values : List String) :
    (f.add name values).outside held =
      if name ∈ held then f.outside held else (f.outside held).add name values := by
  rw [outside, add, write_eq, filter_writeEntry (fun n => n ∉ held)]
  by_cases h : name ∈ held
  · rw [if_pos h, if_neg (by simpa using h), outside]
  · rw [if_neg h, if_pos (by simpa using h), add, write_eq, outside]

theorem outside_set_of_mem (h : name ∈ held) (f : Flags) (values? : Option (List String)) :
    (f.set name values?).outside held = f.outside held := by
  rcases values? with _ | values
  · rfl
  · rw [set, outside_add, if_pos h]

theorem outside_setAll_of_subset {settings : Settings} (h : settings.map (·.1) ⊆ held)
    (f : Flags) : (f.setAll settings).outside held = f.outside held := by
  induction settings generalizing f with
  | nil => rfl
  | cons e rest ih =>
    rw [List.map_cons, List.cons_subset] at h
    rw [setAll_cons, ih h.2, outside_set_of_mem h.1]

theorem filter_eraseP (hn : name ∈ held) (entries : List (String × List String)) :
    (entries.eraseP fun e => e.1 == name).filter (fun e => e.1 ∉ held) =
      entries.filter fun e => e.1 ∉ held := by
  induction entries with
  | nil => rfl
  | cons e rest ih =>
    by_cases he : e.1 = name
    · rw [List.eraseP_cons_of_pos (by simpa using he),
        List.filter_cons_of_neg (by simpa [he] using hn)]
    · rw [List.eraseP_cons_of_neg (by simpa using he), List.filter_cons, List.filter_cons, ih]

theorem filter_renameFirst (hs : source ∈ held) (ht : target ∈ held)
    (entries : List (String × List String)) :
    (renameFirst source target entries).filter (fun e => e.1 ∉ held) =
      entries.filter fun e => e.1 ∉ held := by
  induction entries with
  | nil => rfl
  | cons e rest ih =>
    rw [renameFirst]
    by_cases he : e.1 = source
    · rw [if_pos he, List.filter_cons_of_neg (by simpa using ht),
        List.filter_cons_of_neg (by simpa [he] using hs)]
    · rw [if_neg he, List.filter_cons, List.filter_cons, ih]

theorem outside_rename (hs : source ∈ held) (ht : target ∈ held) (f : Flags) :
    (f.rename source target).outside held = f.outside held := by
  rw [rename]
  split
  · rfl
  · rw [outside, outside, erase, Flags.mk.injEq]
    exact (filter_renameFirst hs ht _).trans (filter_eraseP ht f.entries)

theorem outside_renameAll {rename : String → String} {rs : List String}
    (h : ∀ r ∈ rs, r ∈ held ∧ rename r ∈ held) (f : Flags) :
    (renameAll rename f rs).outside held = f.outside held := by
  induction rs generalizing f with
  | nil => rfl
  | cons r rs ih =>
    rw [List.forall_mem_cons] at h
    rw [renameAll_cons, ih h.2, outside_rename h.1.1 h.1.2]

theorem outside_extend (held : List String) (f g : Flags) :
    (f.extend g).outside held = (f.outside held).extend (g.outside held) := by
  obtain ⟨entries⟩ := g
  show (entries.foldl (fun f e => f.add e.1 e.2) f).outside held =
    (entries.filter fun e => e.1 ∉ held).foldl (fun f e => f.add e.1 e.2) (f.outside held)
  induction entries generalizing f with
  | nil => rfl
  | cons e rest ih =>
    rw [List.foldl_cons, ih, outside_add]
    by_cases he : e.1 ∈ held
    · rw [if_pos he, List.filter_cons_of_neg (by simpa using he)]
    · rw [if_neg he, List.filter_cons_of_pos (by simpa using he), List.foldl_cons]

namespace Alike

theorem refl (held : List String) (f : Flags) : f.Alike held f := AgreeBut.refl "host" _

theorem of_outside {f' g' : Flags} (h : f.Alike held g) (hf : f'.outside held = f.outside held)
    (hg : g'.outside held = g.outside held) : f'.Alike held g' := by
  rw [Alike, hf, hg]
  exact h

/-- Alike flags are the same where the host stands for the same. -/
theorem eq_of_host (h : f.Alike held g) (hheld : "host" ∉ held) (hf : f.Distinct)
    (hhost : f.get? "host" = g.get? "host") : f.outside held = g.outside held := by
  have hkey : (f.outside held).get? "host" = (g.outside held).get? "host" := by
    rw [get?_outside hheld, get?_outside hheld, hhost]
  have hentries := AgreeBut.eq_of_entryFor? h (distinct_outside hf held) hkey
  exact congrArg Flags.mk hentries

/-- Writing a name, with the same values unless it is the host. -/
theorem add {values others : List String} (h : f.Alike held g)
    (hv : name ≠ "host" → values = others) : (f.add name values).Alike held (g.add name others) := by
  rw [Alike, outside_add, outside_add]
  split
  · exact h
  · rw [Flags.add, Flags.add, write_eq, write_eq]
    exact h.writeEntry hv

theorem set (h : f.Alike held g) (name : String) (values? : Option (List String)) :
    (f.set name values?).Alike held (g.set name values?) := by
  rcases values? with _ | values
  · exact h
  · exact h.add fun _ => rfl

theorem setAll (h : f.Alike held g) (settings : Settings) :
    (f.setAll settings).Alike held (g.setAll settings) := by
  induction settings generalizing f g with
  | nil => exact h
  | cons e rest ih => exact ih (h.set e.1 e.2)

theorem addSectionFlag (h : f.Alike held g) (rt rt' : Runtime) (takesHost : Bool) (name : String)
    (value : FlagValue) : (f.addSectionFlag rt takesHost name value).Alike held
      (g.addSectionFlag rt' takesHost name value) := by
  unfold Flags.addSectionFlag
  split
  · rename_i hhost
    refine h.add fun hne => absurd ?_ hne
    rw [Bool.and_eq_true, Bool.and_eq_true, beq_iff_eq] at hhost
    exact hhost.1.2
  · rw [addValue_eq, addValue_eq]
    exact h.set _ _

/-- The host is the only flag of a section that depends on the state. -/
theorem addSection {rt rt' : Runtime} (ht : rt.table = rt'.table) (h : f.Alike held g)
    (command : String) (t : Table FlagValue) :
    (f.addSection rt command t).Alike held (g.addSection rt' command t) := by
  rw [Flags.addSection, Flags.addSection, ht]
  generalize t.entries = entries
  induction entries generalizing f g with
  | nil => exact h
  | cons e rest ih => exact ih (h.addSectionFlag rt rt' _ e.1 e.2)

theorem extend {a b : Flags} (h : f.Alike held g) (hab : a.outside held = b.outside held) :
    (f.extend a).Alike held (g.extend b) := by
  have hout : (f.outside held).Alike [] (g.outside held) := by
    rw [Alike, outside_nil, outside_nil]
    exact h
  have hwritten := hout.setAll ((b.outside held).entries.map fun e => (e.1, some e.2))
  rw [Alike, outside_nil, outside_nil] at hwritten
  rw [Alike, outside_extend, outside_extend, hab, extend_eq_setAll, extend_eq_setAll]
  exact hwritten

end Alike

end Flags

namespace Profile

variable {s : Surroundings} {rt rt' : Runtime} {p : Profile} {command : String}
  {held : List String}

/-- The version of the tool only counts for the fields of the sections for copies and for new
repositories. -/
theorem fieldSettings_congr (ht : rt.table = .builtin) (ht' : rt'.table = .builtin)
    (hl : rt.layout = rt'.layout)
    (hv : command = "copy" ∨ command = "init" → rt.usesSourceFlags = rt'.usesSourceFlags) :
    p.fieldSettings s rt command = p.fieldSettings s rt' command := by
  have htags : ∀ r, p.retentionTags? rt r = p.retentionTags? rt' r := fun r => by
    unfold retentionTags?
    rw [hl]
  unfold fieldSettings
  rw [ht, ht']
  rcases hk : CommandTable.builtin.kindOf? command with _ | kind
  · rfl
  cases kind with
  | retention =>
    refine congrArg (p.retention?.elim []) (funext fun r => ?_)
    rw [retentionSettings, retentionSettings]
    show [_, ("tag", (p.retentionTags? rt r).bind _)] ++ [] = _
    rw [htags]
    rfl
  | copy =>
    obtain rfl := CommandTable.eq_of_kindOf? "copy" hk (by decide)
    refine congrArg (p.copy?.elim []) (funext fun c => ?_)
    rw [CopySection.settings, CopySection.settings, hv (Or.inl rfl)]
    rfl
  | init =>
    obtain rfl := CommandTable.eq_of_kindOf? "init" hk (by decide)
    refine congrArg (p.init?.elim []) (funext fun i => ?_)
    rw [InitSection.settings, InitSection.settings, hv (Or.inr rfl)]
    rfl
  | backup | check | prune | forget | generic => rfl

theorem flagsBelow_congr (ht : rt.table = .builtin) (ht' : rt'.table = .builtin)
    (hv : command = "copy" → rt.usesSourceFlags = rt'.usesSourceFlags) :
    p.flagsBelow rt command = p.flagsBelow rt' command := by
  rw [flagsBelow, flagsBelow, ht, ht']
  by_cases hk : CommandTable.builtin.kindOf? command = some .copy
  · rw [hv (CommandTable.eq_of_kindOf? "copy" hk (by decide))]
  · rw [if_neg fun h => hk h.1, if_neg fun h => hk h.1]

theorem renames_held (h : RepositoryAccess.allNames ⊆ held) (sources : Bool) :
    ∀ r ∈ RepositoryAccess.names, r ∈ held ∧ secondaryName sources r ∈ held := by
  have hall : ∀ r ∈ RepositoryAccess.names,
      r ∈ RepositoryAccess.allNames ∧ secondaryName sources r ∈ RepositoryAccess.allNames := by
    revert sources
    decide
  exact fun r hr => ⟨h (hall r hr).1, h (hall r hr).2⟩

theorem secondaryNames_held (h : RepositoryAccess.allNames ⊆ held) (sources : Bool) :
    RepositoryAccess.names.map (secondaryName sources) ⊆ held := by
  intro n hn
  obtain ⟨r, hr, rfl⟩ := List.mem_map.1 hn
  exact (renames_held h sources r hr).2

/-- Besides the names of repository flags, a copy writes its section over the profile. -/
theorem outside_below_copy (h : RepositoryAccess.allNames ⊆ held) (ht : rt.table = .builtin)
    (s : Surroundings) (p : Profile) :
    ((p.flagsBelow rt "copy").setAll (p.fieldSettings s rt "copy")).outside held =
      p.commonFlags.outside held := by
  have hk : rt.table.kindOf? "copy" = some .copy := by
    rw [ht]
    decide
  have hnames : (p.fieldSettings s rt "copy").map (·.1) ⊆ held := by
    unfold fieldSettings
    rw [hk]
    rcases p.copy? with _ | c
    · exact List.nil_subset _
    · show RepositoryAccess.names.map (if rt.usesSourceFlags then id else secondaryName false) ⊆ held
      split
      · rw [List.map_id]
        exact fun r hr => (renames_held h true r hr).1
      · exact secondaryNames_held h false
  rw [outside_setAll_of_subset hnames, flagsBelow]
  split
  · exact outside_renameAll (renames_held h true) _
  · rfl

/-- Besides the names of repository flags, the fields for a new repository do not depend on the
state. -/
theorem alike_below_init (h : RepositoryAccess.allNames ⊆ held) (ht : rt.table = .builtin)
    (ht' : rt'.table = .builtin) (s : Surroundings) (p : Profile) :
    ((p.flagsBelow rt "init").setAll (p.fieldSettings s rt "init")).Alike held
      ((p.flagsBelow rt' "init").setAll (p.fieldSettings s rt' "init")) := by
  have hbelow : ∀ {rt : Runtime}, rt.table = .builtin → p.flagsBelow rt "init" = p.commonFlags :=
    fun ht => flagsBelow_of_not_source (Or.inl (by rw [ht]; decide))
  have hk : ∀ {rt : Runtime}, rt.table = .builtin → rt.table.kindOf? "init" = some .init :=
    fun ht => by rw [ht]; decide
  rw [hbelow ht, hbelow ht', fieldSettings, fieldSettings, hk ht, hk ht']
  rcases p.init? with _ | i
  · exact .refl held _
  · rw [Option.elim_some, Option.elim_some, InitSection.settings, InitSection.settings,
      setAll_append, setAll_append, setAll_append, setAll_append]
    have haccess : ∀ sources, (p.commonFlags.setAll
        (i.access.settings (secondaryName sources))).outside held = p.commonFlags.outside held :=
      fun sources => outside_setAll_of_subset
        (by rw [RepositoryAccess.names_settings]; exact secondaryNames_held h sources) _
    exact (((Alike.refl held p.commonFlags).of_outside (haccess _) (haccess _)).setAll _).setAll _

/-- The flags of a command are alike in two states, but for repository flags in the commands that
name two repositories. -/
theorem alike_commandFlags (ht : rt.table = .builtin) (ht' : rt'.table = .builtin)
    (hl : rt.layout = rt'.layout) (hheld : rt.usesSourceFlags = rt'.usesSourceFlags ∨
      (command = "copy" ∨ command = "init" → RepositoryAccess.allNames ⊆ held)) :
    (p.commandFlags s rt command).Alike held (p.commandFlags s rt' command) := by
  rw [commandFlags_eq, commandFlags_eq, sectionSettings_eq ht, sectionSettings_eq ht',
    setAll_append, setAll_append, ← addSection_eq_sectionSettings, ← addSection_eq_sectionSettings]
  refine Alike.addSection (ht.trans ht'.symm) ?_ command _
  by_cases hv : command = "copy" ∨ command = "init" → rt.usesSourceFlags = rt'.usesSourceFlags
  · rw [flagsBelow_congr ht ht' fun h => hv (Or.inl h), fieldSettings_congr ht ht' hl hv]
    exact .refl held _
  · rw [Classical.not_imp] at hv
    have hnames := hheld.resolve_left hv.2 hv.1
    rcases hv.1 with rfl | rfl
    · exact (Alike.refl held p.commonFlags).of_outside (outside_below_copy hnames ht s p)
        (outside_below_copy hnames ht' s p)
    · exact alike_below_init hnames ht ht' s p

theorem alike_copyInitFlags (ht : rt.table = rt'.table)
    (hheld : rt.usesSourceFlags = rt'.usesSourceFlags ∨ RepositoryAccess.allNames ⊆ held) :
    Option.Rel (Alike held) (p.copyInitFlags? rt) (p.copyInitFlags? rt') := by
  have hcommon : (p.commonFlags.renameRepository rt.usesSourceFlags).outside held =
      (p.commonFlags.renameRepository rt'.usesSourceFlags).outside held := by
    rcases hheld with hv | hnames
    · rw [hv]
    · have hrename := fun sources => outside_renameAll (renames_held hnames sources) p.commonFlags
      exact (hrename _).trans (hrename _).symm
  rw [copyInitFlags?, copyInitFlags?]
  rcases p.copy? with _ | c
  · exact .none
  · exact .some (((Alike.addSection ht (.refl held _) "copy" c.flags).extend hcommon).add
      fun _ => rfl)

end Profile

theorem FlagValue.eq_switch_of_beq {v : FlagValue} (h : (v == .switch true) = true) :
    v = .switch true := by
  cases v <;> exact of_decide_eq_true h

namespace Derivation

/-- The names that the version of the tool decides on. -/
def gated : Derivation → List String
  | command name => if name = "copy" ∨ name = "init" then RepositoryAccess.allNames else []
  | retention => []
  | copyInit => RepositoryAccess.allNames

/-- The names that two versions may decide differently on. -/
def heldBack (what : Derivation) (version version' : Option ToolVersion) : List String :=
  if ToolVersion.usesSourceFlags version = ToolVersion.usesSourceFlags version' then []
  else what.gated

theorem host_notMem_heldBack (what : Derivation) (version version' : Option ToolVersion) :
    "host" ∉ what.heldBack version version' := by
  have hnames : "host" ∉ RepositoryAccess.allNames := by decide
  unfold heldBack gated
  split
  · exact List.not_mem_nil
  · split
    · split
      · exact hnames
      · exact List.not_mem_nil
    · exact List.not_mem_nil
    · exact hnames

end Derivation

namespace Profile

variable {s : Surroundings} {rt rt' : Runtime} {p : Profile} {command : String}
  {what : Derivation} {f : Flags}

/-- The section of a command has its host on, and the command takes one. -/
def TakesHost (p : Profile) (command : String) : Prop :=
  CommandTable.builtin.supportsHost command = true ∧
    (p.namedFlags command).get? "host" = some (.switch true)

/-- The flags have the name of this host: their section takes it, and where the profile wins over
the section, it has no flag for the host itself. -/
def BindsHost (p : Profile) (what : Derivation) : Prop :=
  p.TakesHost what.sectionName ∧ (what = .copyInit → p.commonFlags.get? "host" = none)

theorem addedValues?_of_takesHost (h : p.TakesHost command) :
    p.addedValues? rt command "host" = some rt.host?.toList := by
  rw [addedValues?, h.1, h.2]
  rfl

theorem addedValues?_host_congr (h : rt.host? = rt'.host? ∨ ¬ p.TakesHost command) :
    p.addedValues? rt command "host" = p.addedValues? rt' command "host" := by
  unfold addedValues?
  rcases hv : (p.namedFlags command).get? "host" with _ | v
  · rfl
  · rw [Option.bind_some, Option.bind_some, sectionValues?, sectionValues?]
    rcases h with h | h
    · rw [h]
    · have hoff : ¬ (CommandTable.builtin.supportsHost command && "host" == "host" &&
          v == .switch true) = true := by
        rw [Bool.and_eq_true, Bool.and_eq_true]
        rintro ⟨⟨hs, -⟩, hon⟩
        exact h ⟨hs, hv.trans (congrArg some (FlagValue.eq_switch_of_beq hon))⟩
      rw [if_neg hoff, if_neg hoff]

theorem derivedValues?_of_bindsHost (h : p.BindsHost what) :
    p.derivedValues? rt "host" what = some rt.host?.toList := by
  cases what with
  | copyInit =>
    rw [derivedValues?, h.2 rfl, Option.none_or]
    exact addedValues?_of_takesHost h.1
  | command name | retention =>
    rw [derivedValues?, addedValues?_of_takesHost h.1, Option.some_or]
    rintro ⟨⟩

theorem derivedValues?_host_congr (h : rt.host? = rt'.host? ∨ ¬ p.BindsHost what) :
    p.derivedValues? rt "host" what = p.derivedValues? rt' "host" what := by
  cases what with
  | copyInit =>
    rw [derivedValues?, derivedValues?]
    rcases hc : p.commonFlags.get? "host" with _ | values
    · have hadded : p.addedValues? rt "copy" "host" = p.addedValues? rt' "copy" "host" :=
        addedValues?_host_congr (h.imp_right fun hb ht => hb ⟨ht, fun _ => hc⟩)
      rw [hadded]
    · rw [Option.some_or, Option.some_or]
  | command name | retention =>
    have hadded := addedValues?_host_congr (h.imp_right fun hb ht => hb ⟨ht, by rintro ⟨⟩⟩)
    simp only [derivedValues?, hadded]

theorem distinct_commandFlags (s : Surroundings) (rt : Runtime) (p : Profile) (command : String) :
    (p.commandFlags s rt command).Distinct := by
  rw [commandFlags_eq, flagsBelow]
  refine distinct_setAll ?_ _
  split
  · exact distinct_renameRepository p.distinct_commonFlags true
  · exact p.distinct_commonFlags

theorem distinct_of_derive? (ht : rt.table = .builtin) (hf : p.derive? s rt what = some f) :
    f.Distinct := by
  cases what with
  | copyInit =>
    obtain ⟨c, hc, -⟩ := Option.map_eq_some_iff.1 hf
    obtain ⟨g, hg, hd, -⟩ := copyInitFlags?_of_copy (p := p) rt hc
    rwa [Option.some.inj (hf.symm.trans hg)]
  | command name =>
    obtain rfl := Option.some.inj hf
    exact distinct_commandFlags s rt p name
  | retention =>
    obtain rfl := Option.some.inj hf
    rw [retentionFlags_eq_commandFlags ht]
    exact distinct_commandFlags s rt p "retention"

theorem alike_derive? (rt rt' : Runtime) (ht : rt.table = .builtin) (ht' : rt'.table = .builtin)
    (hl : rt.layout = rt'.layout) (s : Surroundings) (p : Profile) (what : Derivation) :
    Option.Rel (Alike (what.heldBack rt.version? rt'.version?)) (p.derive? s rt what)
      (p.derive? s rt' what) := by
  have hheld : rt.usesSourceFlags = rt'.usesSourceFlags ∨
      what.heldBack rt.version? rt'.version? = what.gated := by
    unfold Derivation.heldBack Runtime.usesSourceFlags
    split
    · exact Or.inl ‹_›
    · exact Or.inr rfl
  cases what with
  | copyInit =>
    refine alike_copyInitFlags (ht.trans ht'.symm) (hheld.imp_right fun h => ?_)
    rw [h]
    exact List.Subset.refl _
  | command name =>
    refine .some (alike_commandFlags ht ht' hl (hheld.imp_right fun h hname => ?_))
    rw [h, Derivation.gated, if_pos hname]
    exact List.Subset.refl _
  | retention =>
    rw [derive?, derive?, retentionFlags_eq_commandFlags ht, retentionFlags_eq_commandFlags ht']
    exact .some (alike_commandFlags ht ht' hl (Or.inr fun h => absurd h (by decide)))

end Profile

/-- Flags that are derived in two states, and what they share. -/
structure Profile.SharedBy (p : Profile) (what : Derivation) (host host' : Option String)
    (version version' : Option ToolVersion) (f g : Flags) : Prop where
  alike : f.Alike (what.heldBack version version') g
  bound : p.BindsHost what → f.get? "host" = some host.toList ∧ g.get? "host" = some host'.toList
  same : host = host' ∨ ¬ p.BindsHost what →
    f.outside (what.heldBack version version') = g.outside (what.heldBack version version')

namespace Config

/-- In two states of the host and of the version of the tool, a profile has the same flags in the
same order but for the host, where its name is bound, and but for the names of repository flags in
copies and for new repositories, where the versions are on two sides of the release that names
sources. -/
theorem derive?_in_states (d : Document) (file : String) (s : Surroundings) (p : Profile)
    (what : Derivation) (host host' : Option String) (version version' : Option ToolVersion) :
    Option.Rel (p.SharedBy what host host' version version')
      (p.derive? s ((ofDocument d file).runtimeIn host version) what)
      (p.derive? s ((ofDocument d file).runtimeIn host' version') what) ∧
    (host = host' → ToolVersion.usesSourceFlags version = ToolVersion.usesSourceFlags version' ∨
        what.gated = [] →
      p.derive? s ((ofDocument d file).runtimeIn host version) what =
        p.derive? s ((ofDocument d file).runtimeIn host' version') what) := by
  have hrel : Option.Rel (p.SharedBy what host host' version version')
      (p.derive? s ((ofDocument d file).runtimeIn host version) what)
      (p.derive? s ((ofDocument d file).runtimeIn host' version') what) := by
    have halike : Option.Rel (Alike (what.heldBack version version'))
        (p.derive? s ((ofDocument d file).runtimeIn host version) what)
        (p.derive? s ((ofDocument d file).runtimeIn host' version') what) :=
      Profile.alike_derive? ((ofDocument d file).runtimeIn host version)
        ((ofDocument d file).runtimeIn host' version') rfl rfl rfl s p what
    rcases hf : p.derive? s ((ofDocument d file).runtimeIn host version) what with _ | f <;>
      rcases hg : p.derive? s ((ofDocument d file).runtimeIn host' version') what with _ | g <;>
      rw [hf, hg] at halike
    · exact .none
    · cases halike
    · cases halike
    · cases halike with
      | some halike =>
        have hhost := Profile.get?_of_derive? rfl (by decide : "host" ∉ _) hf
        have hhost' := Profile.get?_of_derive? rfl (by decide : "host" ∉ _) hg
        refine .some ⟨halike, fun hb => ?_, fun hsame => ?_⟩
        · rw [hhost, hhost', Profile.derivedValues?_of_bindsHost hb,
            Profile.derivedValues?_of_bindsHost hb]
          exact ⟨rfl, rfl⟩
        · refine halike.eq_of_host (Derivation.host_notMem_heldBack _ _ _)
            (Profile.distinct_of_derive? rfl hf) ?_
          rw [hhost, hhost']
          exact Profile.derivedValues?_host_congr hsame
  refine ⟨hrel, fun hhost hside => ?_⟩
  have hheld : what.heldBack version version' = [] := by
    rcases hside with hv | hg
    · rw [Derivation.heldBack, if_pos hv]
    · rw [Derivation.heldBack, hg, ite_self]
  have hequal : ∀ {x y : Option Flags},
      Option.Rel (p.SharedBy what host host' version version') x y → x = y := by
    rintro _ _ (hshared | _)
    · have houtside := hshared.same (Or.inl hhost)
      rw [hheld, outside_nil, outside_nil] at houtside
      rw [houtside]
    · rfl
  exact hequal hrel

/-- A configuration whose profile has a host of its own, and whose section for copies takes the
name of this one. -/
def hostKept : Config := ofDocument ⟨[
  (.string "default", .mapping [
    (.string "host", .string "a"),
    (.string "copy", .mapping [(.string "host", .bool true)])])]⟩ ""

theorem ancestry_hostKept : ancestry hostKept.profiles "default" = .ok [⟨"default", [
    (.string "host", .string "a"),
    (.string "copy", .mapping [(.string "host", .bool true)])]⟩] := by
  have hroot : hostKept.profiles = hostKept.document.root := by decide
  rw [hroot]
  exact ancestryFrom_last (by decide) rfl rfl (by decide)

/-- The destination is created under the host of the profile, on whatever host that is done. -/
theorem derive?_hostKept : ∃ p f, (hostKept.resolve default "default").result = .ok p ∧
    p.TakesHost "copy" ∧
    p.derive? default (hostKept.runtimeIn (some "b") none) .copyInit = some f ∧
    f.get? "host" = some ["a"] := by
  rw [resolve, mergedBody_of_ancestry ancestry_hostKept]
  exact ⟨_, _, rfl, ⟨by decide, by decide +kernel⟩, rfl, by decide +kernel⟩

end Config

end BackupProfiles
