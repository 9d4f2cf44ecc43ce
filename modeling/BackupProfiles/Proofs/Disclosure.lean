import BackupProfiles.Proofs.Issues
import BackupProfiles.Proofs.Merge.Chain

/-!
# Disclosing the issues of several profiles

The profiles of a configuration write into one log. Resolving a profile puts its issues over those
that the log has for the same names (`get?_failAll_resolve`), so what is disclosed for a name comes from
the last profile that fails it (`get?_disclosed`). No name is lost, but a reason is: the order of
profiles does not matter exactly where no two of them fail one name for different reasons, and
exactly then every failure is disclosed (`disclosed_of_names`).
-/

namespace BackupProfiles

section Answers

variable {α β : Type} {f : α → Option β} {l others : List α} {a : α} {b : β}

/-- Where all answers are equal, the first one is any of them. -/
theorem findSome?_eq_some_of_agree
    (h : ∀ a ∈ l, ∀ a' ∈ l, ∀ b b', f a = some b → f a' = some b' → b = b')
    (ha : a ∈ l) (hb : f a = some b) : l.findSome? f = some b := by
  have hsome : (l.findSome? f).isSome := List.findSome?_isSome_iff.2 ⟨a, ha, by rw [hb]; rfl⟩
  obtain ⟨b', hb'⟩ := Option.isSome_iff_exists.1 hsome
  obtain ⟨a', ha', hfound⟩ := List.exists_of_findSome?_eq_some hb'
  rw [hb', h a' ha' a ha b' b hfound hb]

theorem findSome?_eq_of_agree
    (h : ∀ a ∈ l, ∀ a' ∈ l, ∀ b b', f a = some b → f a' = some b' → b = b')
    (hmem : ∀ a, a ∈ others ↔ a ∈ l) : others.findSome? f = l.findSome? f := by
  rcases hl : l.findSome? f with _ | b
  · rw [List.findSome?_eq_none_iff] at hl ⊢
    exact fun a ha => hl a ((hmem a).1 ha)
  · obtain ⟨a, ha, hb⟩ := List.exists_of_findSome?_eq_some hl
    refine findSome?_eq_some_of_agree (fun a ha a' ha' => ?_) ((hmem a).2 ha) hb
    exact h a ((hmem a).1 ha) a' ((hmem a').1 ha')

end Answers

namespace Config

variable {c : Config} {s : Surroundings} {log : Issues} {name n : String} {names : List String}

/-- The log after profiles were resolved one after the other. -/
def record (c : Config) (s : Surroundings) (log : Issues) (names : List String) : Issues :=
  names.foldl (fun log name => log.failAll (c.resolve s name).issues) log

/-- What is disclosed after profiles were resolved, when the log was disclosed before. -/
def disclosed (c : Config) (s : Surroundings) (log : Issues) (names : List String) : Issues :=
  (c.record s log.disclose.2 names).disclose.1

/-- The issue that resolving a profile leaves for a name: of several the last. -/
def failure? (c : Config) (s : Surroundings) (n name : String) : Option SectionIssue :=
  entryFor? (c.resolve s name).issues.reverse n

/-- Resolving a profile puts its issues over those that the log has for the same names. -/
theorem get?_failAll_resolve (c : Config) (s : Surroundings) (log : Issues) (name n : String) :
    (log.failAll (c.resolve s name).issues).failed.get? n =
      (c.failure? s n name).or (log.failed.get? n) :=
  Issues.get?_failAll_reverse log _ n

/-- No two profiles of a list fail one name for different reasons. -/
def FailAlike (c : Config) (s : Surroundings) (names : List String) : Prop :=
  ∀ n, ∀ a ∈ names, ∀ b ∈ names, ∀ i j, c.failure? s n a = some i → c.failure? s n b = some j →
    i = j

/-- A log holds what the last profile that fails a name left, or what it held before. -/
theorem get?_record (c : Config) (s : Surroundings) (log : Issues) (names : List String)
    (n : String) : (c.record s log names).failed.get? n =
      (names.reverse.findSome? (c.failure? s n)).or (log.failed.get? n) := by
  induction names generalizing log with
  | nil => rfl
  | cons name rest ih =>
    have hstep := get?_failAll_resolve c s log name n
    show (c.record s (log.failAll (c.resolve s name).issues) rest).failed.get? n = _
    rw [ih, hstep, List.reverse_cons, List.findSome?_append, Option.or_assoc,
      List.findSome?_singleton]

theorem changed_record (c : Config) (s : Surroundings) (log : Issues) (names : List String) :
    (c.record s log names).changed = log.changed := by
  induction names generalizing log with
  | nil => rfl
  | cons name rest ih => exact (ih _).trans (Issues.changed_failAll log _)

theorem get?_disclosed (c : Config) (s : Surroundings) (log : Issues) (names : List String)
    (n : String) :
    (c.disclosed s log names).failed.get? n = names.reverse.findSome? (c.failure? s n) := by
  show (c.record s .empty names).failed.get? n = _
  rw [get?_record]
  exact Option.or_none

theorem get?_disclosed_singleton (c : Config) (s : Surroundings) (log : Issues) (name n : String) :
    (c.disclosed s log [name]).failed.get? n = c.failure? s n name := by
  rw [get?_disclosed, List.reverse_singleton, List.findSome?_singleton]

theorem disclosed_congr {others : List String}
    (h : ∀ n, others.reverse.findSome? (c.failure? s n) = names.reverse.findSome? (c.failure? s n)) :
    c.disclosed s log others = c.disclosed s log names := by
  refine Issues.ext (Table.ext_get? fun n => ?_) ?_
  · rw [get?_disclosed, get?_disclosed, h]
  · exact (changed_record c s _ others).trans (changed_record c s _ names).symm

theorem disclosed_of_failAlike {others : List String} (h : c.FailAlike s names)
    (hmem : ∀ name, name ∈ others ↔ name ∈ names) :
    c.disclosed s log others = c.disclosed s log names := by
  refine disclosed_congr fun n => findSome?_eq_of_agree (fun a ha b hb => ?_) fun a => ?_
  · exact h n a (List.mem_reverse.1 ha) b (List.mem_reverse.1 hb)
  · rw [List.mem_reverse, List.mem_reverse, hmem]

/-- What is disclosed when a profile is resolved last. -/
theorem get?_disclosed_last {issue : SectionIssue} (hname : c.failure? s n name = some issue) :
    (c.disclosed s log (names.erase name ++ [name])).failed.get? n = some issue := by
  rw [get?_disclosed, List.reverse_append, List.reverse_singleton, List.singleton_append,
    List.findSome?_cons, hname]

/-- Profiles that are resolved between two disclosures, in any order. What is disclosed for a name
comes from the last profile that fails it, and every name that some profile fails is disclosed. The
same is disclosed in every order exactly if no two profiles fail one name for different reasons, and
exactly then every failure of each of them is disclosed. -/
theorem disclosed_of_names (c : Config) (s : Surroundings) (log : Issues) (names : List String) :
    (∀ n, (c.disclosed s log names).failed.get? n =
      names.reverse.findSome? fun name => (c.disclosed s log [name]).failed.get? n) ∧
    (∀ n, n ∈ (c.disclosed s log names).failed.keys ↔
      ∃ name ∈ names, n ∈ (c.disclosed s log [name]).failed.keys) ∧
    ((∀ others, names.Perm others → c.disclosed s log others = c.disclosed s log names) ↔
      c.FailAlike s names) ∧
    ((∀ name ∈ names, ∀ n issue, (c.disclosed s log [name]).failed.get? n = some issue →
      (c.disclosed s log names).failed.get? n = some issue) ↔ c.FailAlike s names) := by
  simp only [Table.mem_keys_iff, get?_disclosed_singleton]
  simp only [get?_disclosed]
  refine ⟨fun _ => trivial, fun n => ?_, ⟨fun h n a ha b hb i j hi hj => ?_, fun h others hp => ?_⟩,
    ⟨fun h n a ha b hb i j hi hj => ?_, fun h name hname n issue hissue => ?_⟩⟩
  · simp only [ne_eq, List.findSome?_eq_none_iff, List.mem_reverse, not_forall, exists_prop]
  · -- either one can be resolved last
    have hlast : ∀ a ∈ names, (c.disclosed s log (names.erase a ++ [a])) = c.disclosed s log names :=
      fun a ha => h _ ((List.perm_cons_erase ha).trans (List.perm_append_singleton a _).symm)
    have hi' : (c.disclosed s log (names.erase a ++ [a])).failed.get? n = some i :=
      get?_disclosed_last hi
    have hj' : (c.disclosed s log (names.erase b ++ [b])).failed.get? n = some j :=
      get?_disclosed_last hj
    rw [hlast a ha] at hi'
    rw [hlast b hb, hi'] at hj'
    exact Option.some.inj hj'
  · exact disclosed_of_failAlike h fun name => hp.symm.mem_iff
  · have hi' := h a ha n i hi
    rw [h b hb n j hj] at hi'
    exact (Option.some.inj hi').symm
  · refine findSome?_eq_some_of_agree (fun a ha b hb => ?_) (List.mem_reverse.2 hname) hissue
    exact h n a (List.mem_reverse.1 ha) b (List.mem_reverse.1 hb)

/-- A configuration with two profiles that fail one section, each in its own way. -/
def twoFaults : Config := .ofDocument ⟨[
  (.string "a", .mapping [(.string "ls", .number (.int 1))]),
  (.string "b", .mapping [(.string "ls", .list [])])]⟩ ""

theorem issues_twoFaults :
    (twoFaults.resolve default "a").issues = [("ls", .notMap .number)] ∧
      (twoFaults.resolve default "b").issues = [("ls", .notMap .list)] := by
  have hroot : twoFaults.profiles = twoFaults.document.root := by decide
  have ha : mergedBody twoFaults.profiles "a" = .ok [(.string "ls", .number (.int 1))] := by
    rw [hroot, mergedBody, ancestry, ancestryFrom_last (by decide) rfl rfl (by decide)]
    rfl
  have hb : mergedBody twoFaults.profiles "b" = .ok [(.string "ls", .list [])] := by
    rw [hroot, mergedBody, ancestry, ancestryFrom_last (by decide) rfl rfl (by decide)]
    rfl
  rw [resolve, ha, resolve, hb]
  exact ⟨rfl, rfl⟩

/-- The profile that is resolved first loses its issue. -/
theorem disclosed_twoFaults :
    twoFaults.disclosed default .empty ["a", "b"] ≠ twoFaults.disclosed default .empty ["b", "a"] ∧
    (twoFaults.disclosed default .empty ["a"]).failed.get? "ls" = some (.notMap .number) ∧
    (twoFaults.disclosed default .empty ["a", "b"]).failed.get? "ls" = some (.notMap .list) := by
  obtain ⟨ha, hb⟩ := issues_twoFaults
  simp only [disclosed, record, List.foldl_cons, List.foldl_nil, ha, hb]
  refine ⟨fun h => ?_, rfl, rfl⟩
  have hlost : some (SectionIssue.notMap .list) = some (.notMap .number) :=
    congrArg (fun i : Issues => i.failed.get? "ls") h
  cases hlost

end Config

end BackupProfiles
