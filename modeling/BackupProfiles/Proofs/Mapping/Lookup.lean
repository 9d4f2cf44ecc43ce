import BackupProfiles.Proofs.Value.SameKey
import Mathlib.Data.List.Nodup

/-!
# Look-ups in a mapping

A mapping is looked up by any value that stands for the key (`get?_congr`), and a text only by
itself. Writing a key changes what that key stands for and nothing else. Removing a key moves the
last entry into its place, so the other keys are sure to keep their values only where no two keys
are the same: there the entries left are those of the other keys, in some order (`erase_perm`).
-/

namespace BackupProfiles.Mapping

open Value

variable {m n : Mapping} {key other value : Value} {s : String}

/-- No two keys are the same. -/
def Distinct (m : Mapping) : Prop := m.keys.Pairwise fun j k => j.sameKey k = false

@[simp]
theorem get?_nil (key : Value) : get? [] key = none := rfl

theorem get?_cons (e : Value × Value) (rest : Mapping) (key : Value) :
    get? (e :: rest) key = if e.1.sameKey key then some e.2 else get? rest key := by
  rw [get?, get?, List.find?_cons]
  cases e.1.sameKey key <;> rfl

theorem get?_congr (h : key.sameKey other = true) (m : Mapping) : m.get? key = m.get? other := by
  unfold get?
  simp only [sameKey_congr h]

@[simp]
theorem keys_nil : keys [] = [] := rfl

@[simp]
theorem keys_cons (e : Value × Value) (rest : Mapping) : keys (e :: rest) = e.1 :: keys rest := rfl

theorem mem_keys {e : Value × Value} (h : e ∈ m) : e.1 ∈ m.keys :=
  List.mem_map_of_mem (f := Prod.fst) h

theorem keys_perm (h : m.Perm n) : m.keys.Perm n.keys := h.map Prod.fst

/-- What a key stands for stands in an entry with that key. -/
theorem exists_of_get? (h : m.get? key = some value) :
    ∃ k, k.sameKey key = true ∧ (k, value) ∈ m := by
  induction m with
  | nil => cases h
  | cons e rest ih =>
    rw [get?_cons] at h
    split at h
    · rename_i he
      exact ⟨e.1, he, Option.some.inj h ▸ List.mem_cons_self⟩
    · obtain ⟨k, hk, hmem⟩ := ih h
      exact ⟨k, hk, List.mem_cons_of_mem _ hmem⟩

theorem mem_of_get? (h : m.get? (.string s) = some value) : (.string s, value) ∈ m := by
  obtain ⟨k, hk, hmem⟩ := exists_of_get? h
  rwa [sameKey_string.1 hk] at hmem

theorem get?_eq_none_iff : m.get? key = none ↔ ∀ k ∈ m.keys, k.sameKey key = false := by
  induction m with
  | nil => simp
  | cons e rest ih =>
    rw [get?_cons, keys_cons, List.forall_mem_cons]
    cases he : e.1.sameKey key with
    | true => simp
    | false => simpa using ih

theorem get?_string_eq_none_iff : m.get? (.string s) = none ↔ .string s ∉ m.keys := by
  rw [get?_eq_none_iff]
  constructor
  · intro h hmem
    have hself := h _ hmem
    rw [sameKey_self] at hself
    cases hself
  · intro h k hk
    rw [Bool.eq_false_iff]
    exact fun hsame => h (sameKey_string.1 hsame ▸ hk)

theorem mem_keys_iff : .string s ∈ m.keys ↔ m.get? (.string s) ≠ none := by
  rw [ne_eq, get?_string_eq_none_iff, not_not]

section Distinct

theorem Distinct.nil : Distinct [] := List.Pairwise.nil

theorem distinct_cons {e : Value × Value} :
    Distinct (e :: m) ↔ m.get? e.1 = none ∧ m.Distinct := by
  rw [get?_eq_none_iff]
  simp only [sameKey_comm _ e.1]
  exact List.pairwise_cons

theorem Distinct.nodup (hm : m.Distinct) : m.keys.Nodup := by
  refine hm.imp fun {j k} h heq => ?_
  rw [heq, sameKey_self] at h
  cases h

theorem Distinct.perm (hm : m.Distinct) (h : m.Perm n) : n.Distinct :=
  (keys_perm h).pairwise hm fun {j k} hjk => by rwa [sameKey_comm]

theorem Distinct.filter (hm : m.Distinct) (keep : Value × Value → Bool) :
    Distinct (m.filter keep) :=
  hm.sublist (List.filter_sublist.map Prod.fst)

theorem nodup_filter (hm : m.keys.Nodup) (keep : Value × Value → Bool) :
    (keys (m.filter keep)).Nodup :=
  hm.sublist (List.filter_sublist.map Prod.fst)

theorem get?_of_mem (hm : m.Distinct) (h : (key, value) ∈ m) : m.get? key = some value := by
  induction m with
  | nil => cases h
  | cons e rest ih =>
    rw [distinct_cons] at hm
    rw [get?_cons]
    rcases List.mem_cons.1 h with rfl | h
    · rw [if_pos (sameKey_self _)]
    · have hne : e.1.sameKey key = false := by
        rw [sameKey_comm]
        exact get?_eq_none_iff.1 hm.1 key (mem_keys h)
      rw [hne]
      exact ih hm.2 h

/-- A text stands for what stands in its entry, if it is there no more than once. -/
theorem get?_eq_some_iff (hm : m.keys.Nodup) :
    m.get? (.string s) = some value ↔ (.string s, value) ∈ m := by
  refine ⟨mem_of_get?, fun h => ?_⟩
  induction m with
  | nil => cases h
  | cons e rest ih =>
    rw [keys_cons, List.nodup_cons] at hm
    rw [get?_cons]
    rcases List.mem_cons.1 h with rfl | h
    · rw [if_pos (sameKey_self _)]
    · rw [if_neg]
      · exact ih hm.2 h
      · rw [sameKey_string]
        exact fun he => hm.1 (he ▸ mem_keys h)

/-- Where no two keys are the same, look-ups see the entries and not their order. -/
theorem get?_perm (hm : m.Distinct) (h : m.Perm n) : m.get? key = n.get? key := by
  rcases hv : m.get? key with _ | v
  · rw [get?_eq_none_iff] at hv
    exact (get?_eq_none_iff.2 fun k hk => hv k ((keys_perm h).mem_iff.2 hk)).symm
  · obtain ⟨k, hk, hmem⟩ := exists_of_get? hv
    rw [← get?_congr hk, get?_of_mem (hm.perm h) (h.mem_iff.1 hmem)]

end Distinct

section Insert

theorem get?_insert (m : Mapping) (key value other : Value) :
    (m.insert key value).get? other =
      if key.sameKey other then some value else m.get? other := by
  induction m with
  | nil => rw [insert, get?_cons]
  | cons e rest ih =>
    rw [insert]
    split
    · rename_i he
      rw [get?_cons, get?_cons, sameKey_comm e.1 other, sameKey_congr he, sameKey_comm other]
      split <;> rfl
    · rename_i he
      rw [get?_cons, get?_cons, ih]
      by_cases hk : key.sameKey other = true
      · rw [if_neg fun h => he (sameKey_trans h (sameKey_symm hk)), if_pos hk, if_pos hk]
      · rw [if_neg hk, if_neg hk]

theorem insert_of_none (h : m.get? key = none) (value : Value) :
    m.insert key value = m ++ [(key, value)] := by
  induction m with
  | nil => rfl
  | cons e rest ih =>
    rw [get?_cons] at h
    split at h
    · cases h
    · rename_i he
      rw [insert, if_neg he, ih h, List.cons_append]

theorem keys_insert (m : Mapping) (key value : Value) :
    (m.insert key value).keys = if m.get? key = none then m.keys ++ [key] else m.keys := by
  induction m with
  | nil => rfl
  | cons e rest ih =>
    rw [insert, get?_cons]
    split
    · rw [if_neg (Option.some_ne_none _)]
      rfl
    · rw [keys_cons, ih, keys_cons]
      split <;> rfl

theorem Distinct.insert (hm : m.Distinct) (key value : Value) : (m.insert key value).Distinct := by
  rw [Distinct, keys_insert]
  split
  · rename_i h
    rw [get?_eq_none_iff] at h
    refine List.pairwise_append.2 ⟨hm, List.pairwise_singleton _ _, fun j hj k hk => ?_⟩
    rw [List.mem_singleton.1 hk]
    exact h j hj
  · exact hm

theorem mem_insert {e : Value × Value} (h : e ∈ m.insert key value) :
    e.2 = value ∨ e ∈ m := by
  induction m with
  | nil =>
    simp only [Mapping.insert, List.mem_singleton] at h
    simp [h]
  | cons a rest ih =>
    rw [Mapping.insert] at h
    split at h
    · rcases List.mem_cons.1 h with rfl | h
      · exact Or.inl rfl
      · exact Or.inr (List.mem_cons_of_mem _ h)
    · rcases List.mem_cons.1 h with rfl | h
      · exact Or.inr List.mem_cons_self
      · exact (ih h).imp_right (List.mem_cons_of_mem _)

end Insert

section Erase

theorem filter_eq_self (h : m.get? key = none) : m.filter (fun e => !e.1.sameKey key) = m := by
  rw [get?_eq_none_iff] at h
  refine List.filter_eq_self.2 fun e he => ?_
  rw [h e.1 (mem_keys he)]
  rfl

theorem get?_filter {keep : Value → Bool} (hk : ∀ k, k.sameKey key = true → keep k = keep key)
    (m : Mapping) : get? (m.filter fun e => keep e.1) key =
      if keep key then m.get? key else none := by
  induction m with
  | nil => simp
  | cons e rest ih =>
    rw [List.filter_cons, get?_cons]
    by_cases he : e.1.sameKey key = true
    · rw [hk _ he, if_pos he]
      split
      · rw [get?_cons, if_pos he]
      · rename_i hkeep
        rw [ih, if_neg hkeep]
    · rw [if_neg he]
      split
      · rw [get?_cons, if_neg he, ih]
      · exact ih

theorem get?_filter_not_sameKey (m : Mapping) (key other : Value) :
    get? (m.filter fun e => !e.1.sameKey key) other =
      if key.sameKey other then none else m.get? other := by
  have hkeep : ∀ k : Value, k.sameKey other = true → (!k.sameKey key) = !other.sameKey key :=
    fun k hk => by rw [sameKey_comm k, sameKey_congr hk, sameKey_comm]
  refine (get?_filter hkeep m).trans ?_
  rw [sameKey_comm other]
  cases key.sameKey other <;> rfl

theorem erase_perm (hm : m.Distinct) :
    (m.erase key).Perm (m.filter fun e => !e.1.sameKey key) := by
  induction m with
  | nil => exact List.Perm.refl _
  | cons e rest ih =>
    rw [distinct_cons] at hm
    rw [erase]
    by_cases he : e.1.sameKey key = true
    · rw [if_pos he, List.filter_cons_of_neg (by simp [he]),
        filter_eq_self ((get?_congr he rest).symm.trans hm.1)]
      rcases hl : rest.getLast? with _ | final
      · rw [List.getLast?_eq_none_iff.1 hl]
      · obtain ⟨front, rfl⟩ := List.getLast?_eq_some_iff.1 hl
        simp only [List.dropLast_concat]
        exact (List.perm_append_singleton final front).symm
    · rw [if_neg he, List.filter_cons_of_pos (by simp [he])]
      exact (ih hm.2).cons e

theorem Distinct.erase (hm : m.Distinct) (key : Value) : (m.erase key).Distinct :=
  (hm.filter _).perm (erase_perm hm).symm

theorem get?_erase (hm : m.Distinct) :
    (m.erase key).get? other = if key.sameKey other then none else m.get? other := by
  rw [get?_perm (hm.erase key) (erase_perm hm), get?_filter_not_sameKey]

theorem mem_erase (hm : m.Distinct) {e : Value × Value} (h : e ∈ m.erase key) : e ∈ m :=
  (List.mem_filter.1 ((erase_perm hm).mem_iff.1 h)).1

end Erase

end BackupProfiles.Mapping
