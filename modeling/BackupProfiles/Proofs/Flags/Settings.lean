import BackupProfiles.Profile.Flags
import BackupProfiles.Proofs.Flags.Lookup

/-!
# Flags as lists of settings

The flags of a profile and of a section are written from lists of settings without a name twice, the
fields first and then what the document adds by name (`commonFlags_eq`, `addSection_eq`). So a name
stands for the last setting of it that is not suppressed (`get?_commonFlags`, `get?_addSection`).
-/

namespace BackupProfiles

namespace Table

variable {α : Type}

theorem nodup_keys (t : Table α) : (t.entries.map (·.1)).Nodup := by
  rw [List.Nodup, List.pairwise_map]
  exact t.sorted.imp fun h => String.ne_of_lt h

theorem entryFor?_entries (t : Table α) (name : String) :
    entryFor? t.entries name = t.get? name := rfl

/-- The flags of a table as settings. -/
def settings (emit : String → FlagValue → Option (List String)) (t : Table FlagValue) :
    Flags.Settings :=
  t.entries.map fun e => (e.1, emit e.1 e.2)

theorem nodup_settings (emit : String → FlagValue → Option (List String)) (t : Table FlagValue) :
    ((t.settings emit).map (·.1)).Nodup := by
  rw [settings, List.map_map]
  exact t.nodup_keys

theorem entryFor?_settings (emit : String → FlagValue → Option (List String))
    (t : Table FlagValue) (name : String) :
    (entryFor? (t.settings emit) name).join = (t.get? name).bind (emit name) := by
  rw [settings, entryFor?_map, entryFor?_entries]
  rcases t.get? name with _ | v <;> rfl

end Table

/-- What a flag of a section writes. -/
def sectionValues? (rt : Runtime) (takesHost : Bool) (name : String) (value : FlagValue) :
    Option (List String) :=
  if takesHost && name == "host" && value == .switch true then some rt.host?.toList
  else value.emitted?

def verbosityValues? : Nat → Option (List String)
  | 0 => none
  | 1 => some []
  | level => some [Text.natText level]

/-- The settings that give access to a repository, under the names that `rename` gives. -/
def RepositoryAccess.settings (rename : String → String) (a : RepositoryAccess) : Flags.Settings :=
  (names.zip a.values).map fun e => (rename e.1, (FlagValue.text e.2).emitted?)

/-- The settings of the fields of a profile that every command gets. -/
def Profile.commonSettings (p : Profile) : Flags.Settings :=
  [("cache-dir", (FlagValue.text p.cacheDir).emitted?),
    ("cacert", (FlagValue.text p.caCert).emitted?),
    ("tls-client-cert", (FlagValue.text p.tlsClientCert).emitted?)] ++
  p.access.settings id ++
  [("quiet", (FlagValue.switch p.quiet).emitted?), ("verbose", verbosityValues? p.verbose)]

variable {f : Flags} {name : String} {rt : Runtime}

namespace Flags

theorem addValue_eq (f : Flags) (name : String) (value : FlagValue) :
    f.addValue name value = f.set name value.emitted? := by
  rw [addValue]
  split <;> simp only [set, *]

theorem addVerbosity_eq (f : Flags) : ∀ level : Nat,
    f.addVerbosity level = f.set "verbose" (verbosityValues? level)
  | 0 | 1 | _ + 2 => rfl

theorem addTable_eq (f : Flags) (t : Table FlagValue) :
    f.addTable t = f.setAll (t.settings fun _ value => value.emitted?) := by
  rw [addTable, setAll, Table.settings, List.foldl_map]
  simp only [addValue_eq]

theorem addSectionFlag_eq (takesHost : Bool) (f : Flags) (name : String) (value : FlagValue) :
    f.addSectionFlag rt takesHost name value =
      f.set name (sectionValues? rt takesHost name value) := by
  unfold addSectionFlag sectionValues?
  split
  · rfl
  · exact addValue_eq f name value

theorem addSection_eq (rt : Runtime) (f : Flags) (command : String) (t : Table FlagValue) :
    f.addSection rt command t =
      f.setAll (t.settings (sectionValues? rt (rt.table.supportsHost command))) := by
  rw [addSection, setAll, Table.settings, List.foldl_map]
  simp only [addSectionFlag_eq]

theorem addTo_eq (rename : String → String) (a : RepositoryAccess) (f : Flags) :
    a.addTo rename f = f.setAll (a.settings rename) := by
  rw [RepositoryAccess.addTo, setAll, RepositoryAccess.settings, List.foldl_map]
  simp only [addText, addValue_eq]

theorem get?_addSection (f : Flags) (command : String) (t : Table FlagValue) (name : String) :
    (f.addSection rt command t).get? name =
      ((t.get? name).bind (sectionValues? rt (rt.table.supportsHost command) name)).or
        (f.get? name) := by
  rw [addSection_eq, get?_setAll (t.nodup_settings _), t.entryFor?_settings]

theorem get?_addSection_of_none (command : String) {t : Table FlagValue}
    (h : t.get? name = none) : (f.addSection rt command t).get? name = f.get? name := by
  rw [get?_addSection, h, Option.bind_none, Option.none_or]

theorem distinct_addSection (hf : f.Distinct) (command : String) (t : Table FlagValue) :
    (f.addSection rt command t).Distinct := by
  rw [addSection_eq]
  exact distinct_setAll hf _

theorem distinct_addTo (hf : f.Distinct) (rename : String → String) (a : RepositoryAccess) :
    (a.addTo rename f).Distinct := by
  rw [addTo_eq]
  exact distinct_setAll hf _

end Flags

theorem sectionValues?_of_ne (h : name ≠ "host") (takesHost : Bool) (value : FlagValue) :
    sectionValues? rt takesHost name value = value.emitted? := by
  rw [sectionValues?, if_neg (by simp [h])]

namespace Profile

open Flags

theorem names_commonSettings (p : Profile) : p.commonSettings.map (·.1) =
    ["cache-dir", "cacert", "tls-client-cert"] ++ RepositoryAccess.names ++ ["quiet", "verbose"] :=
  rfl

theorem commonFlags_eq (p : Profile) :
    p.commonFlags = (Flags.empty.setAll p.commonSettings).addTable p.flags := by
  rw [commonFlags, commonSettings, setAll_append, setAll_append, addTo_eq, addVerbosity_eq]
  simp only [addText, addSwitch, addValue_eq]
  rfl

theorem get?_commonFlags (p : Profile) (name : String) :
    p.commonFlags.get? name =
      ((p.flags.get? name).bind FlagValue.emitted?).or (entryFor? p.commonSettings name).join := by
  have hn : (p.commonSettings.map (·.1)).Nodup := by
    rw [names_commonSettings]
    decide
  rw [commonFlags_eq, addTable_eq, get?_setAll (p.flags.nodup_settings _),
    p.flags.entryFor?_settings, get?_setAll hn, get?_empty, Option.or_none]

theorem distinct_commonFlags (p : Profile) : p.commonFlags.Distinct := by
  rw [commonFlags_eq, addTable_eq]
  exact distinct_setAll (distinct_setAll distinct_empty _) _

end Profile

end BackupProfiles
