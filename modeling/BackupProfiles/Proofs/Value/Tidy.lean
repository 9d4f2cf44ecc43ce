import BackupProfiles.Proofs.Mapping.Lookup
import BackupProfiles.Value.Distinct

/-!
# Tidy values

A value is tidy when no mapping that is reached from it through mappings has a key twice. What
stands in lists does not count: bodies are merged without looking into lists. A value with distinct
keys is tidy (`tidy_of_allDistinct`).
-/

namespace BackupProfiles.Value

inductive Tidy : Value → Prop where
  | mapping {m : Mapping} (keys : m.Distinct) (values : ∀ e ∈ m, Tidy e.2) : Tidy (.mapping m)
  | leaf {v : Value} (h : v.mapping? = none) : Tidy v

namespace Tidy

variable {m : Mapping} {key v : Value}

theorem distinct (h : (Value.mapping m).Tidy) : m.Distinct := by
  cases h with
  | mapping keys => exact keys
  | leaf h => simp [mapping?] at h

theorem nodup (h : (Value.mapping m).Tidy) : m.keys.Nodup := h.distinct.nodup

theorem mem (h : (Value.mapping m).Tidy) {e : Value × Value} (he : e ∈ m) : e.2.Tidy := by
  cases h with
  | mapping _ values => exact values e he
  | leaf h => simp [mapping?] at h

theorem get? (h : (Value.mapping m).Tidy) (hv : m.get? key = some v) : v.Tidy := by
  obtain ⟨k, -, hmem⟩ := Mapping.exists_of_get? hv
  exact h.mem hmem

theorem nil : (Value.mapping []).Tidy := .mapping .nil (by simp)

theorem insert (h : (Value.mapping m).Tidy) (hv : v.Tidy) :
    (Value.mapping (m.insert key v)).Tidy := by
  refine .mapping (h.distinct.insert key v) fun e he => ?_
  rcases Mapping.mem_insert he with rfl | he
  · exact hv
  · exact h.mem he

theorem erase (h : (Value.mapping m).Tidy) (key : Value) :
    (Value.mapping (m.erase key)).Tidy :=
  .mapping (h.distinct.erase key) fun _ he => h.mem (Mapping.mem_erase h.distinct he)

theorem filter (h : (Value.mapping m).Tidy) (keep : Value × Value → Bool) :
    (Value.mapping (m.filter keep)).Tidy :=
  .mapping (h.distinct.filter keep) fun _ he => h.mem (List.mem_filter.1 he).1

end Tidy

section Distinct

theorem distinct_of_distinctKeys : ∀ {m : Mapping},
    distinctKeys (m.map (·.1)) = true → m.Distinct
  | [], _ => .nil
  | e :: rest, h => by
    rw [List.map_cons, distinctKeys, Bool.and_eq_true, List.all_eq_true] at h
    refine List.pairwise_cons.2 ⟨fun k hk => ?_, distinct_of_distinctKeys h.2⟩
    exact Bool.not_eq_true' _ ▸ h.1 k hk

mutual

theorem tidy_of_allDistinct : ∀ v : Value, v.allDistinct = true → v.Tidy
  | .mapping m, h => by
    rw [allDistinct, Bool.and_eq_true] at h
    exact .mapping (distinct_of_distinctKeys h.1) (tidy_of_allDistinctEntries m h.2)
  | .null, _ | .bool _, _ | .number _, _ | .string _, _ | .list _, _ | .tagged _ _, _ => .leaf rfl

theorem tidy_of_allDistinctEntries :
    ∀ m : List (Value × Value), allDistinctEntries m = true → ∀ e ∈ m, e.2.Tidy
  | [], _, _, he => by simp at he
  | (key, v) :: rest, h, e, he => by
    rw [allDistinctEntries, Bool.and_eq_true, Bool.and_eq_true] at h
    rcases List.mem_cons.1 he with rfl | he
    · exact tidy_of_allDistinct v h.1.2
    · exact tidy_of_allDistinctEntries rest h.2 e he

end

end Distinct

end BackupProfiles.Value
