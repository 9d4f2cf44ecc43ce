import BackupProfiles.Config
import BackupProfiles.Proofs.Value.Tidy

/-!
# Documents have no key twice

Reading a document refuses a text with a key twice in one map, so every document that is read is
distinct (`distinct_of_parse`), and so is whatever stands in it, the bodies of its profiles among
them (`tidy_of_profiles`).
-/

namespace BackupProfiles

/-- No map in the document has a key twice. -/
def Document.Distinct (d : Document) : Prop := (Value.mapping d.root).allDistinct = true

namespace Value

theorem allDistinct_of_mem : ∀ {m : Mapping} {e : Value × Value},
    allDistinctEntries m = true → e ∈ m → e.2.allDistinct = true
  | [], _, _, he => by simp at he
  | (key, v) :: rest, e, h, he => by
    rw [allDistinctEntries, Bool.and_eq_true, Bool.and_eq_true] at h
    rcases List.mem_cons.1 he with rfl | he
    · exact h.1.2
    · exact allDistinct_of_mem h.2 he

theorem allDistinct_untagged : ∀ {v : Value}, v.allDistinct = true → v.untagged.allDistinct = true
  | .tagged _ v, h => by
    rw [untagged]
    exact allDistinct_untagged (v := v) (by rwa [allDistinct] at h)
  | .null, h | .bool _, h | .number _, h | .string _, h | .list _, h | .mapping _, h => by
    simpa [untagged] using h

theorem allDistinct_member? {v w : Value} {key : String} (h : v.allDistinct = true)
    (hw : v.member? key = some w) : w.allDistinct = true := by
  cases v with
  | mapping m =>
    rw [allDistinct, Bool.and_eq_true] at h
    exact allDistinct_of_mem h.2 (Mapping.mem_of_get? hw)
  | _ => simp [member?, mapping?] at hw

end Value

namespace Document

theorem distinct_of_parse {format : Format} {text : String} {d : Document}
    (h : parse format text = .ok d) : d.Distinct := by
  unfold parse at h
  split at h
  · cases h
  · rename_i root hr
    simp only [Except.ok.injEq] at h
    subst h
    exact (Option.filter_eq_some_iff.1 hr).2
  · simp only [Except.ok.injEq] at h
    subst h
    rfl
  · cases h

theorem allDistinct_descend : ∀ {path : List String} {v w : Value},
    v.allDistinct = true → descend v path = some w → w.allDistinct = true
  | [], v, w, h, hw => by
    simp only [descend, Option.some.injEq] at hw
    rwa [← hw]
  | key :: path, v, w, h, hw => by
    rw [descend, Option.bind_eq_some_iff] at hw
    obtain ⟨u, hu, hw⟩ := hw
    exact allDistinct_descend (Value.allDistinct_member? (Value.allDistinct_untagged h) hu) hw

end Document

namespace Config

variable {c : Config}

theorem allDistinct_profiles (h : c.document.Distinct) :
    Value.allDistinctEntries c.profiles = true := by
  unfold profiles Document.mapping?
  rcases hv : Document.descend (.mapping c.document.root) (profilesPath c.layout) with _ | v
  · rfl
  · have hu := Value.allDistinct_untagged (Document.allDistinct_descend h hv)
    simp only []
    cases hm : v.untagged with
    | mapping m =>
      rw [hm, Value.allDistinct, Bool.and_eq_true] at hu
      exact hu.2
    | _ => rfl

theorem tidy_of_profiles (h : c.document.Distinct) {e : Value × Value} (he : e ∈ c.profiles) :
    e.2.Tidy :=
  Value.tidy_of_allDistinctEntries _ (allDistinct_profiles h) e he

end Config

end BackupProfiles
