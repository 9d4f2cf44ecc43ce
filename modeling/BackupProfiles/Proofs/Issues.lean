import BackupProfiles.Issues
import BackupProfiles.Proofs.Table.Lookup

/-!
# Logs of issues

Issues are written into the tables of a log one after the other. Which names a log has issues for
then depends on the names that are added (`keys_failAll_perm`), and with a description for each item
a log tells what every item became (`reports_changeAll`).
-/

namespace BackupProfiles

namespace Issues

theorem ext {i j : Issues} (hf : i.failed = j.failed) (hc : i.changed = j.changed) : i = j := by
  cases i
  cases j
  cases hf
  cases hc
  rfl

section Failed

variable {found others : List (String × SectionIssue)} {log : Issues} {n : String}

theorem failed_failAll (log : Issues) (found : List (String × SectionIssue)) :
    (log.failAll found).failed = found.foldl (fun t e => t.insert e.1 e.2) log.failed :=
  (List.foldl_hom failed fun _ _ => rfl).symm

theorem changed_failAll (log : Issues) (found : List (String × SectionIssue)) :
    (log.failAll found).changed = log.changed := by
  induction found generalizing log with
  | nil => rfl
  | cons e rest ih => exact ih (log.fail e.1 e.2)

/-- What a log holds after issues were added to it: of one name the last. -/
theorem get?_failAll_reverse (log : Issues) (found : List (String × SectionIssue)) (n : String) :
    (log.failAll found).failed.get? n = (entryFor? found.reverse n).or (log.failed.get? n) := by
  rw [failed_failAll, Table.get?_foldl_insert]

/-- What a log holds after issues without double names were added to it. -/
theorem get?_failAll (hn : (found.map (·.1)).Nodup) (log : Issues) (n : String) :
    (log.failAll found).failed.get? n = (entryFor? found n).or (log.failed.get? n) := by
  rw [get?_failAll_reverse, entryFor?_perm hn found.reverse_perm.symm]

theorem get?_failAll_of_mem {issue : SectionIssue} (hf : ∀ e ∈ found, e.1 = n → e.2 = issue)
    (h : (n, issue) ∈ found) (log : Issues) : (log.failAll found).failed.get? n = some issue := by
  rw [failed_failAll, Table.get?_foldl_insert_of_mem hf h]

/-- Which names a log has issues for after issues were added to it. -/
theorem mem_keys_failAll :
    n ∈ (log.failAll found).failed.keys ↔ n ∈ found.map (·.1) ∨ n ∈ log.failed.keys := by
  rw [Table.mem_keys_iff, Table.mem_keys_iff, get?_failAll_reverse, ne_eq, Option.or_eq_none_iff,
    entryFor?_eq_none_iff, List.map_reverse, List.mem_reverse, not_and_or, not_not]

theorem keys_failAll_perm (h : (found.map (·.1)).Perm (others.map (·.1))) (log : Issues) :
    (log.failAll found).failed.keys = (log.failAll others).failed.keys :=
  Table.ext_keys fun n => by rw [mem_keys_failAll, mem_keys_failAll, h.mem_iff]

end Failed

section Changed

/-- A log changes by one entry for each item that became something else than it is written as. -/
structure Reports {α : Type} (items : List α) (describe : α → String)
    (written becomes : α → List String) (log after : Issues) : Prop where
  reported : ∀ a ∈ items, becomes a ≠ written a →
    after.changed.get? (describe a) = some (becomes a)
  unreported : ∀ a ∈ items, becomes a = written a →
    after.changed.get? (describe a) = log.changed.get? (describe a)
  others : ∀ key, (∀ a ∈ items, describe a ≠ key) →
    after.changed.get? key = log.changed.get? key
  failed : after.failed = log.failed

variable {α : Type} {items : List α} {describe : α → String} {written becomes : α → List String}
  {found : List (String × List String)} {log : Issues} {key : String} {paths : List String}

theorem changed_changeAll (log : Issues) (found : List (String × List String)) :
    (log.changeAll found).changed = found.foldl (fun t e => t.insert e.1 e.2) log.changed :=
  (List.foldl_hom changed fun _ _ => rfl).symm

theorem failed_changeAll (log : Issues) (found : List (String × List String)) :
    (log.changeAll found).failed = log.failed := by
  induction found generalizing log with
  | nil => rfl
  | cons e rest ih => exact ih (log.change e.1 e.2)

theorem get?_changeAll_of_mem (hf : ∀ e ∈ found, e.1 = key → e.2 = paths)
    (h : (key, paths) ∈ found) : (log.changeAll found).changed.get? key = some paths := by
  rw [changed_changeAll, Table.get?_foldl_insert_of_mem hf h]

theorem get?_changeAll_of_notMem (h : key ∉ found.map (·.1)) :
    (log.changeAll found).changed.get? key = log.changed.get? key := by
  rw [changed_changeAll, Table.get?_foldl_insert, entryFor?_eq_none_iff.2, Option.none_or]
  rwa [List.map_reverse, List.mem_reverse]

/-- Recording the items that became something else, each under a description of its own. -/
theorem reports_changeAll (hd : ∀ a ∈ items, ∀ b ∈ items, describe a = describe b → a = b)
    (log : Issues) : Reports items describe written becomes log
      (log.changeAll ((items.filter fun a => becomes a ≠ written a).map fun a =>
        (describe a, becomes a))) where
  reported a ha hne := by
    refine get?_changeAll_of_mem (fun e he hkey => ?_)
      (List.mem_map.2 ⟨a, List.mem_filter.2 ⟨ha, by simpa using hne⟩, rfl⟩)
    obtain ⟨b, hb, rfl⟩ := List.mem_map.1 he
    rw [hd b (List.mem_filter.1 hb).1 a ha hkey]
  unreported a ha heq := by
    refine get?_changeAll_of_notMem fun hmem => ?_
    obtain ⟨b, hb, hkey⟩ := List.mem_map.1 (List.map_map ▸ hmem)
    have hchanged := (List.mem_filter.1 hb).2
    rw [hd b (List.mem_filter.1 hb).1 a ha hkey] at hchanged
    simp [heq] at hchanged
  others key hkey := by
    refine get?_changeAll_of_notMem fun hmem => ?_
    obtain ⟨b, hb, hdescribe⟩ := List.mem_map.1 (List.map_map ▸ hmem)
    exact hkey b (List.mem_filter.1 hb).1 hdescribe
  failed := failed_changeAll log _

end Changed

end Issues

end BackupProfiles
