import BackupProfiles.Proofs.Document.Distinct
import BackupProfiles.Proofs.Value.Plain

/-!
# Parts of a document

The version stands at the root, and so do the profiles or the mapping they stand in. The profiles of
a tidy document are tidy.
-/

namespace BackupProfiles

namespace Document

theorem get?_version (d : Document) : d.get? "version" = d.root.get? (.string "version") := by
  have hsplit : Text.split '.' "version" = ["version"] := by decide
  show descend (.mapping d.root) (Text.split '.' "version") = _
  rw [hsplit]
  show (d.root.get? (.string "version")).bind some = _
  exact Option.bind_fun_some _

end Document

namespace Config

variable {d : Document}

theorem tidy_profiles (hp : (Value.mapping d.root).Plain) (ht : (Value.mapping d.root).Tidy)
    (file : String) : (Value.mapping (ofDocument d file).profiles).Tidy := by
  rcases hl : (ofDocument d file).layout with _ | _
  · rw [profiles_of_flat hl]
    exact ht
  · rw [profiles_of_nested hl]
    rcases hv : d.root.get? (.string "profiles") with _ | v
    · simp only [ofDocument, hv]
      exact .nil
    · have htidy := ht.get? hv
      simp only [ofDocument, hv, Option.bind_some, (hp.get? hv).untagged_eq]
      cases v with
      | mapping m => exact htidy
      | _ => exact .nil

end Config

end BackupProfiles
