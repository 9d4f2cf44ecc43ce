import BackupProfiles.Flags
import BackupProfiles.Proofs.Association

/-!
# Looking flags up

What every operation on flags does to the values of a name, and that no operation writes a name
twice. Most flags are written from a list of settings, where a suppressed setting writes nothing
(`setAll`): if the list has no name twice, a name stands for what its setting writes, or else for
what it stood for before (`get?_setAll`).
-/

namespace BackupProfiles

namespace Flags

/-- A setting of each name: its values, or none if it is suppressed. -/
abbrev Settings := List (String × Option (List String))

/-- Writes a setting. -/
def set (f : Flags) (name : String) : Option (List String) → Flags
  | some values => f.add name values
  | none => f

def setAll (f : Flags) (settings : Settings) : Flags :=
  settings.foldl (fun f e => f.set e.1 e.2) f

/-- No name stands twice. -/
def Distinct (f : Flags) : Prop := f.names.Nodup

/-- The values of every entry with a name. -/
def emissions (f : Flags) (name : String) : List (List String) :=
  (f.entries.filter fun e => e.1 = name).map (·.2)

variable {f g : Flags} {name other source target : String} {values : List String}

theorem get?_empty (name : String) : empty.get? name = none := rfl

theorem write_eq (name : String) (values : List String) (entries : List (String × List String)) :
    write name values entries = writeEntry name values entries := by
  induction entries with
  | nil => rfl
  | cons e rest ih => rw [write, writeEntry, ih]

@[simp]
theorem get?_add (f : Flags) (name : String) (values : List String) (other : String) :
    (f.add name values).get? other = if name = other then some values else f.get? other := by
  rw [add, write_eq]
  exact entryFor?_writeEntry name values f.entries other

theorem get?_set (f : Flags) (name : String) (values? : Option (List String)) (other : String) :
    (f.set name values?).get? other =
      if name = other then values?.or (f.get? other) else f.get? other := by
  rcases values? with _ | values
  · simp [set]
  · rw [set, get?_add, Option.some_or]

theorem setAll_cons (f : Flags) (e : String × Option (List String)) (rest : Settings) :
    f.setAll (e :: rest) = (f.set e.1 e.2).setAll rest := rfl

theorem setAll_append (f : Flags) (first second : Settings) :
    f.setAll (first ++ second) = (f.setAll first).setAll second :=
  List.foldl_append

theorem get?_setAll {settings : Settings} (hn : (settings.map (·.1)).Nodup) (name : String) :
    (f.setAll settings).get? name = (entryFor? settings name).join.or (f.get? name) := by
  induction settings generalizing f with
  | nil => rfl
  | cons e rest ih =>
    rw [List.map_cons, List.nodup_cons] at hn
    rw [setAll_cons, ih hn.2, get?_set, entryFor?_cons]
    by_cases h : e.1 = name
    · rw [if_pos h, if_pos h, entryFor?_eq_none_iff.2 (h ▸ hn.1)]
      rfl
    · rw [if_neg h, if_neg h]

theorem extend_eq_setAll (f g : Flags) :
    f.extend g = f.setAll (g.entries.map fun e => (e.1, some e.2)) := by
  rw [extend, setAll, List.foldl_map]
  rfl

theorem get?_extend (hg : g.Distinct) (name : String) :
    (f.extend g).get? name = (g.get? name).or (f.get? name) := by
  have hn : ((g.entries.map fun e => (e.1, some e.2)).map (·.1)).Nodup := by
    rw [List.map_map]
    exact hg
  rw [extend_eq_setAll, get?_setAll hn,
    entryFor?_map (fun _ values => (some values : Option (List String)))]
  show ((g.get? name).map some).join.or _ = _
  rcases g.get? name with _ | values <;> rfl

/-- Where no name stands twice, erasing it leaves the entries with other names. -/
theorem entries_erase (hf : f.Distinct) (name : String) :
    (f.erase name).entries = f.entries.filter fun e => e.1 ≠ name :=
  eraseP_eq_filter hf name

theorem get?_erase (hf : f.Distinct) (name other : String) :
    (f.erase name).get? other = if name = other then none else f.get? other := by
  show entryFor? (f.erase name).entries other = _
  rw [entries_erase hf]
  exact entryFor?_filter_ne f.entries name other

theorem erase_set_self (f : Flags) (name : String) (values? : Option (List String)) :
    (f.set name values?).erase name = f.erase name := by
  rcases values? with _ | values
  · rfl
  obtain ⟨entries⟩ := f
  rw [set, add, erase, erase, Flags.mk.injEq]
  dsimp only
  induction entries with
  | nil => simp [write]
  | cons e rest ih =>
    rw [write]
    by_cases he : e.1 = name
    · rw [if_pos he, List.eraseP_cons_of_pos (by simpa using he),
        List.eraseP_cons_of_pos (by simpa using he)]
    · rw [if_neg he, List.eraseP_cons_of_neg (by simpa using he),
        List.eraseP_cons_of_neg (by simpa using he), ih]

theorem erase_set_of_ne (h : other ≠ name) (f : Flags) (values? : Option (List String)) :
    (f.set other values?).erase name = (f.erase name).set other values? := by
  rcases values? with _ | values
  · rfl
  obtain ⟨entries⟩ := f
  rw [set, set, add, add, erase, erase, Flags.mk.injEq]
  dsimp only
  induction entries with
  | nil => simp [write, h]
  | cons e rest ih =>
    rw [write]
    by_cases he : e.1 = other
    · have hne : e.1 ≠ name := he ▸ h
      rw [if_pos he, List.eraseP_cons_of_neg (by simpa using hne),
        List.eraseP_cons_of_neg (by simpa using hne), write, if_pos he]
    · rw [if_neg he]
      by_cases hname : e.1 = name
      · rw [List.eraseP_cons_of_pos (by simpa using hname),
          List.eraseP_cons_of_pos (by simpa using hname)]
      · rw [List.eraseP_cons_of_neg (by simpa using hname),
          List.eraseP_cons_of_neg (by simpa using hname), write, if_neg he, ih]

theorem erase_setAll {settings : Settings} (h : name ∉ settings.map (·.1)) (f : Flags) :
    (f.setAll settings).erase name = (f.erase name).setAll settings := by
  induction settings generalizing f with
  | nil => rfl
  | cons e rest ih =>
    rw [List.map_cons, List.mem_cons, not_or] at h
    rw [setAll_cons, setAll_cons, ih h.2, erase_set_of_ne (Ne.symm h.1)]

/-- Where no name stands twice, the first entry with a name is the only one that is renamed. -/
theorem renameFirst_eq {entries : List (String × List String)} (hn : (entries.map (·.1)).Nodup)
    (source target : String) : renameFirst source target entries =
      entries.map fun e => if e.1 = source then (target, e.2) else e := by
  induction entries with
  | nil => rfl
  | cons e rest ih =>
    rw [List.map_cons, List.nodup_cons] at hn
    rw [renameFirst, List.map_cons]
    by_cases he : e.1 = source
    · have hrest : ∀ a ∈ rest, (if a.1 = source then (target, a.2) else a) = a := fun a ha => by
        rw [if_neg]
        exact fun heq => hn.1 (List.mem_map.2 ⟨a, ha, heq.trans he.symm⟩)
      rw [if_pos he, if_pos he, List.map_congr_left hrest, List.map_id']
    · rw [if_neg he, if_neg he, ih hn.2]

theorem distinct_erase (hf : f.Distinct) (name : String) : (f.erase name).Distinct :=
  hf.sublist (List.eraseP_sublist.map _)

/-- What renaming leaves of flags without a name twice. -/
theorem entries_rename (hf : f.Distinct) (hne : source ≠ target) (hs : f.contains source = true) :
    (f.rename source target).entries = (f.entries.filter fun e => e.1 ≠ target).map fun e =>
      if e.1 = source then (target, e.2) else e := by
  rw [rename, if_neg (by simp [hne, hs])]
  dsimp only
  rw [renameFirst_eq (distinct_erase hf target), entries_erase hf]

/-- Looking up where one name was replaced by another that does not stand there. -/
theorem entryFor?_replace {entries : List (String × List String)}
    (ht : target ∉ entries.map (·.1)) (source name : String) :
    entryFor? (entries.map fun e => if e.1 = source then (target, e.2) else e) name =
      if source = name then none
      else if target = name then entryFor? entries source else entryFor? entries name := by
  induction entries with
  | nil => simp [entryFor?_nil]
  | cons e rest ih =>
    rw [List.map_cons, List.mem_cons, not_or] at ht
    rw [List.map_cons, entryFor?_cons, ih ht.2]
    simp only [entryFor?_cons]
    split <;> grind

theorem get?_rename (hf : f.Distinct) (hne : source ≠ target) (name : String) :
    (f.rename source target).get? name =
      if source = name then none
      else if target = name then (f.get? source).or (f.get? target) else f.get? name := by
  rcases hs : f.get? source with _ | values
  · have hcontains : f.contains source = false := by rw [contains, hs, Option.isSome_none]
    rw [rename, if_pos (Or.inr hcontains), Option.none_or]
    split
    · rename_i h
      rw [← h, hs]
    · split
      · rename_i h
        rw [h]
      · rfl
  · have hcontains : f.contains source = true := by rw [contains, hs, Option.isSome_some]
    have ht : target ∉ (f.entries.filter fun e => e.1 ≠ target).map (·.1) := by
      rw [List.mem_map]
      rintro ⟨e, he, heq⟩
      simpa [heq] using (List.mem_filter.1 he).2
    have hget : ∀ n, entryFor? (f.entries.filter fun e => e.1 ≠ target) n =
        if target = n then none else f.get? n :=
      entryFor?_filter_ne f.entries target
    show entryFor? (f.rename source target).entries name = _
    rw [entries_rename hf hne hcontains, Option.some_or, ← hs, entryFor?_replace ht, hget, hget,
      if_neg hne.symm]
    split
    · rfl
    · split <;> rfl

theorem get?_rename_of_ne (hf : f.Distinct) (hs : source ≠ name) (ht : target ≠ name) :
    (f.rename source target).get? name = f.get? name := by
  by_cases hne : source = target
  · rw [rename, if_pos (Or.inl hne)]
  · rw [get?_rename hf hne, if_neg hs, if_neg ht]

theorem distinct_empty : empty.Distinct := List.nodup_nil

theorem distinct_add (hf : f.Distinct) (name : String) (values : List String) :
    (f.add name values).Distinct := by
  rw [Distinct, names, add, write_eq]
  exact nodup_writeEntry hf name values

theorem distinct_set (hf : f.Distinct) (name : String) :
    ∀ values? : Option (List String), (f.set name values?).Distinct
  | some values => distinct_add hf name values
  | none => hf

theorem distinct_setAll (hf : f.Distinct) (settings : Settings) : (f.setAll settings).Distinct := by
  induction settings generalizing f with
  | nil => exact hf
  | cons e rest ih =>
    rw [setAll_cons]
    exact ih (distinct_set hf e.1 e.2)

theorem distinct_extend (hf : f.Distinct) (g : Flags) : (f.extend g).Distinct := by
  rw [extend_eq_setAll]
  exact distinct_setAll hf _

theorem names_erase (hf : f.Distinct) (name : String) :
    (f.erase name).names = f.names.filter (· ≠ name) := by
  rw [names, entries_erase hf, names, List.filter_map]
  rfl

/-- A name that is renamed keeps its place. -/
theorem names_rename (hf : f.Distinct) (hne : source ≠ target) (hs : f.contains source = true) :
    (f.rename source target).names =
      (f.names.filter (· ≠ target)).map fun name => if name = source then target else name := by
  rw [← names_erase hf, names, names, entries_rename hf hne hs, entries_erase hf, List.map_map,
    List.map_map]
  refine List.map_congr_left fun e _ => ?_
  show (if e.1 = source then (target, e.2) else e).1 = if e.1 = source then target else e.1
  split <;> rfl

theorem distinct_rename (hf : f.Distinct) (source target : String) :
    (f.rename source target).Distinct := by
  by_cases h : source = target ∨ f.contains source = false
  · rwa [rename, if_pos h]
  rw [not_or, Bool.not_eq_false] at h
  rw [Distinct, names_rename hf h.1 h.2]
  -- the new name is not among those that are left
  have hleft : ∀ a ∈ f.names.filter (· ≠ target), a ≠ target := fun a ha => by
    simpa using (List.mem_filter.1 ha).2
  refine (hf.filter _).map_on fun a ha b hb hab => ?_
  split at hab <;> split at hab
  · rename_i ha hb
    rw [ha, hb]
  · exact absurd hab.symm (hleft b hb)
  · exact absurd hab (hleft a ha)
  · exact hab

theorem emissions_eq (hf : f.Distinct) (name : String) :
    f.emissions name = (f.get? name).toList := by
  obtain ⟨entries⟩ := f
  show (entries.filter fun e => e.1 = name).map (·.2) = (entryFor? entries name).toList
  induction entries with
  | nil => rfl
  | cons e rest ih =>
    rw [Distinct, names, List.map_cons, List.nodup_cons] at hf
    rw [entryFor?_cons]
    by_cases he : e.1 = name
    · have hrest : (rest.filter fun e => e.1 = name) = [] := by
        rw [List.filter_eq_nil_iff]
        intro a ha heq
        exact hf.1 (List.mem_map.2 ⟨a, ha, by rw [he]; simpa using heq⟩)
      rw [List.filter_cons_of_pos (by simpa using he), if_pos he, hrest]
      rfl
    · rw [List.filter_cons_of_neg (by simpa using he), if_neg he]
      exact ih hf.2

end Flags

end BackupProfiles
