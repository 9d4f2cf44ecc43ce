import BackupProfiles.Config
import BackupProfiles.Proofs.Mapping.Lookup

/-!
# Looking things up in a document

What stands under a path and one more key stands in the mapping under the path (`at?_concat`). So
profiles and declared schedules are looked up in the mapping of all profiles and in the mapping of
all schedules, and their names are the texts of its keys (`mem_keys`).
-/

namespace BackupProfiles

namespace Document

theorem descend_concat : ∀ (v : Value) (path : List String) (key : String),
    descend v (path ++ [key]) = (descend v path).bind fun w => w.untagged.member? key
  | v, [], key => by
    rw [List.nil_append, descend, descend, Option.bind_some]
    exact Option.bind_fun_some _
  | v, first :: path, key => by
    rw [List.cons_append, descend, descend, Option.bind_assoc]
    exact Option.bind_congr fun w _ => descend_concat w path key

theorem at?_concat (d : Document) (path : List String) (key : String) :
    d.at? (path ++ [key]) = ((d.mapping? path).getD []).get? (.string key) := by
  have hat : d.at? (path ++ [key]) = descend (.mapping d.root) (path ++ [key]) := by
    cases path <;> rfl
  rw [hat, descend_concat, mapping?]
  rcases descend (.mapping d.root) path with _ | v
  · rfl
  · rw [Option.bind_some, Value.member?]
    rcases hm : v.untagged.mapping? with _ | m <;> simp only [hm] <;> rfl

theorem mem_keys {d : Document} {path : List String} {n : String} :
    n ∈ d.keys path ↔ ∃ key ∈ ((d.mapping? path).getD []).keys, key.keyText = some n := by
  rw [keys, Mapping.keys]
  rcases d.mapping? path with _ | m
  · simp
  · simp only [Option.map_some, Option.getD_some, List.mem_filterMap, List.mem_map]
    constructor
    · rintro ⟨e, he, hn⟩
      exact ⟨e.1, ⟨e, he, rfl⟩, hn⟩
    · rintro ⟨key, ⟨e, he, rfl⟩, hn⟩
      exact ⟨e, he, hn⟩

end Document

namespace Config

variable {c : Config} {name : String}

/-- A profile is there when the mapping of all profiles has its name. -/
theorem profileValue?_eq (c : Config) (name : String) :
    c.profileValue? name = c.profiles.get? (.string name) :=
  c.document.at?_concat (profilesPath c.layout) name

theorem hasProfile_eq_false : c.hasProfile name = false ↔ c.profiles.get? (.string name) = none := by
  rw [hasProfile, profileValue?_eq, Option.isSome_eq_false_iff, Option.isNone_iff_eq_none]

end Config

end BackupProfiles
