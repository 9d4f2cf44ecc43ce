import BackupProfiles.Proofs.Flags.Lookup

/-!
# The order of flags

Flags without a name twice are settled by the order of their names and by what the names stand for
(`entries_eq`). Writing keeps the names where they are and puts new ones at the end (`names_setAll`,
`names_extend`).
-/

namespace BackupProfiles.Flags

variable {f g : Flags} {name source target : String}

theorem get?_eq_none_iff : f.get? name = none ↔ name ∉ f.names := entryFor?_eq_none_iff

theorem mem_names_iff : name ∈ f.names ↔ f.get? name ≠ none := by
  rw [ne_eq, get?_eq_none_iff, not_not]

theorem entries_eq (hf : f.Distinct) :
    f.entries = f.names.map fun name => (name, (f.get? name).getD []) := by
  rw [names, List.map_map]
  refine ((List.map_congr_left fun e he => ?_).trans (List.map_id _)).symm
  have hget : f.get? e.1 = some e.2 := entryFor?_of_mem hf he
  simp [hget]

/-- The arguments are those of the names in their order. -/
theorem arguments_eq (hf : f.Distinct) :
    f.arguments = f.names.flatMap fun name => argumentsOf name ((f.get? name).getD []) := by
  rw [arguments, entries_eq hf, List.flatMap_map]

/-- Flags with the same names in the same order, standing for the same, are equal. -/
theorem ext_get? (hf : f.Distinct) (hnames : f.names = g.names)
    (hget : ∀ name, f.get? name = g.get? name) : f = g := by
  have hg : g.Distinct := by rwa [Distinct, ← hnames]
  have hentries : f.entries = g.entries := by
    rw [entries_eq hf, entries_eq hg, hnames]
    exact List.map_congr_left fun name _ => by rw [hget]
  cases f
  cases g
  cases hentries
  rfl

theorem names_add (f : Flags) (name : String) (values : List String) :
    (f.add name values).names = if name ∈ f.names then f.names else f.names ++ [name] := by
  rw [names, add, write_eq]
  exact keys_writeEntry name values f.entries

/-- The names that a list of settings writes. -/
def Settings.written (settings : Settings) : List String :=
  (settings.filter fun e => e.2.isSome).map (·.1)

theorem Settings.written_subset (settings : Settings) : settings.written ⊆ settings.map (·.1) :=
  (List.filter_sublist.map _).subset

theorem Settings.mem_written {settings : Settings} {name : String} :
    name ∈ settings.written ↔ ∃ values, (name, some values) ∈ settings := by
  simp [written, Option.isSome_iff_exists]

/-- Names stay where they are, and new ones follow in the order of the settings. -/
theorem names_setAll {settings : Settings} (hn : (settings.map (·.1)).Nodup) (f : Flags) :
    (f.setAll settings).names = f.names ++ settings.written.filter (· ∉ f.names) := by
  induction settings generalizing f with
  | nil => simp [setAll, Settings.written]
  | cons e rest ih =>
    rw [List.map_cons, List.nodup_cons] at hn
    obtain ⟨name, values?⟩ := e
    rw [setAll_cons, ih hn.2]
    rcases values? with _ | values
    · rfl
    have hwritten : Settings.written ((name, some values) :: rest) =
        name :: Settings.written rest := rfl
    have hname : name ∉ Settings.written rest := fun h =>
      hn.1 (Settings.written_subset rest h)
    rw [set, names_add, hwritten]
    by_cases h : name ∈ f.names
    · rw [if_pos h, List.filter_cons_of_neg (by simpa using h)]
    · rw [if_neg h, List.filter_cons_of_pos (by simpa using h), List.append_assoc,
        List.singleton_append]
      -- the name is new, and the rest does not write it again
      have hrest : ∀ other ∈ Settings.written rest,
          decide (other ∉ f.names ++ [name]) = decide (other ∉ f.names) := by
        intro other hother
        have hne : other ≠ name := fun heq => hname (heq ▸ hother)
        simp [hne]
      rw [List.filter_congr hrest]

theorem names_extend (hg : g.Distinct) (f : Flags) :
    (f.extend g).names = f.names ++ g.names.filter (· ∉ f.names) := by
  have hnames : (g.entries.map fun e => (e.1, some e.2)).map (·.1) = g.names := by
    rw [List.map_map]
    rfl
  have hwritten : Settings.written (g.entries.map fun e => (e.1, some e.2)) = g.names := by
    have hall : ∀ e ∈ g.entries.map fun e => (e.1, some e.2), e.2.isSome = true := by
      intro e he
      obtain ⟨a, -, rfl⟩ := List.mem_map.1 he
      rfl
    rw [Settings.written, List.filter_eq_self.2 hall, hnames]
  rw [extend_eq_setAll, names_setAll (by rwa [hnames]), hwritten]

theorem contains_iff : f.contains name = true ↔ name ∈ f.names := by
  rw [contains, Option.isSome_iff_ne_none, mem_names_iff]

/-- Renaming does nothing where the name does not stand. -/
theorem rename_of_notMem (hs : source ∉ f.names) (target : String) :
    f.rename source target = f := by
  rw [rename, if_pos (Or.inr (Bool.eq_false_iff.2 (mt contains_iff.1 hs)))]

end BackupProfiles.Flags
