import BackupProfiles.Proofs.Profile.Resolved

/-!
# Generic sections under any table

A table can name a section twice and give it two kinds. Look-ups take the first row, and they decide
what becomes of an entry of a body. The generic sections of a profile are filled in row by row, and
a value is used up by the first row of its name. So a profile has a generic section exactly where
look-ups call its name generic, one generic row has that name, and the value can be read
(`GenericAccount`): a second row writes over what the first one read.
-/

namespace BackupProfiles

variable {table : CommandTable} {body : Mapping} {n name : String} {v : Value} {p q : Profile}
  {values : Table Value} {used names : List String} {issue : SectionIssue}
  {found : List FoundIssue}

/-- The value of the last entry whose key has a text. -/
def Mapping.lastNamed? (m : Mapping) (n : String) : Option Value :=
  (m.reverse.find? fun e => e.1.keyText = some n).map (·.2)

/-- A value that stands for a generic section: null for the one without entries, or a mapping. -/
def GenericSection.StandsFor (v : Value) (g : GenericSection) : Prop :=
  (v = .null ∧ g = empty) ∨ ∃ m, v = .mapping m ∧ read v = .ok g

theorem readGeneric_eq_ok_iff {g : GenericSection} :
    readGeneric v = .ok g ↔ GenericSection.StandsFor v g := by
  unfold GenericSection.StandsFor
  cases v with
  | null => simp [readGeneric, eq_comm]
  | mapping m =>
    rw [readGeneric]
    rcases GenericSection.read (.mapping m) with f | h <;> simp
  | _ => simp [readGeneric]

namespace CommandTable

/-- A row whose name stands once is the row that look-ups find. -/
theorem find?_of_count {row : CommandInfo} (hr : row ∈ table.rows)
    (hc : table.names.count row.name ≤ 1) : table.find? row.name = some row := by
  obtain ⟨rows⟩ := table
  rw [find?]
  rw [names] at hc
  dsimp only at hr hc ⊢
  induction rows with
  | nil => cases hr
  | cons first rest ih =>
    rw [List.map_cons, List.count_cons] at hc
    by_cases hf : first.name = row.name
    · have hrest : row ∉ rest := fun hr => by
        have hpos := List.count_pos_iff.2 (List.mem_map_of_mem (f := fun c => c.name) hr)
        rw [if_pos (by simpa using hf)] at hc
        omega
      obtain rfl := (List.mem_cons.1 hr).resolve_right hrest
      exact List.find?_cons_of_pos (by simp)
    · rw [List.find?_cons_of_neg (by simpa using hf)]
      exact ih ((List.mem_cons.1 hr).resolve_left fun he => hf (by rw [he])) (by omega)

/-- A name that stands once is generic by its row and by look-ups alike. -/
theorem mem_genericNames_iff (h : table.names.count n ≤ 1) :
    n ∈ table.genericNames ↔ table.isGeneric n = true := by
  refine ⟨fun hn => ?_, mem_genericNames_of_isGeneric⟩
  obtain ⟨row, hrow, rfl⟩ := List.mem_map.1 hn
  obtain ⟨hmem, hgeneric⟩ := List.mem_filter.1 hrow
  rw [isGeneric, find?_of_count hmem h]
  exact hgeneric

end CommandTable

section Entries

/-- The value of a generic section is that of the last entry with its name. -/
theorem get?_genericEntries_any (table : CommandTable) (body : Mapping) (n : String) :
    (genericEntries table body).get? n =
      if table.isGeneric n = true then body.lastNamed? n else none := by
  rw [genericEntries, Table.get?_ofList, ← List.filterMap_reverse, Mapping.lastNamed?]
  induction body.reverse with
  | nil => simp [entryFor?_nil]
  | cons e rest ih =>
    obtain ⟨key, v⟩ := e
    rw [List.filterMap_cons]
    by_cases hk : key.keyText = some n
    · rw [List.find?_cons_of_pos (by simpa using hk)]
      rcases hg : table.isGeneric n with _ | _
      · have hrole : ∀ m, EntryRole.of table key v ≠ .generic m := fun m hr => by
          obtain ⟨hkm, hgm⟩ := EntryRole.of_eq_generic.1 hr
          rw [hk, Option.some.injEq] at hkm
          rw [← hkm, hg] at hgm
          cases hgm
        rw [hg] at ih
        rcases hr : EntryRole.of table key v with m | _ | _ | _
        · exact absurd hr (hrole m)
        · exact ih
        · exact ih
        · exact ih
      · rw [EntryRole.of_eq_generic.2 ⟨hk, hg⟩]
        simp [entryFor?_cons]
    · rw [List.find?_cons_of_neg (by simpa using hk)]
      rcases hr : EntryRole.of table key v with m | _ | _ | _
      · have hm : m ≠ n := fun hm => hk (hm ▸ (EntryRole.of_eq_generic.1 hr).1)
        dsimp only
        rw [entryFor?_cons, if_neg hm]
        exact ih
      · exact ih
      · exact ih
      · exact ih

/-- A refused entry is none that look-ups call generic. -/
theorem notMem_refusedEntries (hg : table.isGeneric n = true) (issue : SectionIssue) :
    (n, issue) ∉ refusedEntries table body := fun h => by
  obtain ⟨key, v, why, -, -, hw, -⟩ := mem_refusedEntries_iff.1 h
  exact absurd (hw.1.symm.trans hg) (by decide)

end Entries

section Rows

/-- Of the rows with one name the first uses the value up, and the last counts. -/
theorem entryFor?_readGenerics (values : Table Value) (n : String) : ∀ used names : List String,
    entryFor? (readGenerics values used names).reverse n =
      if n ∈ names then
        some (if n ∈ used ∨ 1 < names.count n then none else (values.get? n).map readGeneric)
      else none
  | _, [] => by simp [readGenerics, entryFor?_nil]
  | used, m :: rest => by
    rw [readGenerics, List.reverse_cons, entryFor?_append,
      entryFor?_readGenerics values n (m :: used) rest, entryFor?_cons, entryFor?_nil]
    by_cases hm : m = n
    · subst hm
      by_cases hr : m ∈ rest
      · have hpos := List.count_pos_iff.2 hr
        simp [hr]
      · simp [hr, List.count_eq_zero_of_not_mem hr]
    · have hm' : n ≠ m := Ne.symm hm
      by_cases hr : n ∈ rest <;> simp [hr, hm, hm']

theorem mem_readGenerics : ∀ {used names : List String},
    (n, some (.error issue)) ∈ readGenerics values used names ↔
      n ∈ names ∧ n ∉ used ∧ ∃ v, values.get? n = some v ∧ readGeneric v = .error issue
  | _, [] => by simp [readGenerics]
  | used, m :: rest => by
    rw [readGenerics, List.mem_cons, mem_readGenerics, Prod.mk.injEq]
    by_cases hm : n = m
    · subst hm
      by_cases hu : n ∈ used
      · simp [hu]
      · simp [hu, eq_comm (b := Option.map _ _)]
    · simp [hm]

/-- The issues of the rows of a table. -/
theorem mem_unreadIssues : (n, issue) ∈ ((readGenerics values used names).filterMap fun e =>
      match e.2 with
      | some (.error issue) => some (e.1, issue)
      | _ => none) ↔ (n, some (.error issue)) ∈ readGenerics values used names := by
  rw [List.mem_filterMap]
  constructor
  · rintro ⟨⟨m, read⟩, he, heq⟩
    dsimp only at heq
    split at heq
    · obtain ⟨rfl, rfl⟩ := Prod.mk.inj (Option.some.inj heq)
      exact he
    · cases heq
  · exact fun he => ⟨_, he, rfl⟩

end Rows

section Decode

/-- What a body is read to under any table. -/
theorem decode_of_rows (h : (decode table name body).result = .ok q) :
    ∃ p, Profile.readBody (.mapping (keptEntries table body)) = .ok p ∧
      q = { p with name := name, generic := q.generic } ∧
      (∀ n, q.generic.get? n = if n ∈ table.genericNames then
        some (if 1 < table.genericNames.count n then none
          else ((genericEntries table body).get? n).bind fun v => (readGeneric v).toOption)
        else none) ∧
      ∀ n issue, (n, issue) ∈ (decode table name body).issues ↔
        (n, issue) ∈ refusedEntries table body ∨ n ∈ table.genericNames ∧
          ∃ v, (genericEntries table body).get? n = some v ∧ readGeneric v = .error issue := by
  rcases hp : Profile.readBody (.mapping (keptEntries table body)) with f | p
  · rw [decode_of_fault hp] at h
    cases h
  unfold decode at h ⊢
  rw [hp] at h ⊢
  dsimp only at h ⊢
  obtain rfl := Except.ok.inj h
  refine ⟨p, rfl, rfl, fun n => ?_, fun n issue => ?_⟩
  · rw [Table.get?_ofList, ← List.map_reverse,
      entryFor?_map (fun _ (a : Option (Except SectionIssue GenericSection)) =>
        a.bind Except.toOption) _ n, entryFor?_readGenerics]
    by_cases hn : n ∈ table.genericNames
    · by_cases hc : 1 < table.genericNames.count n
      · simp [hn, hc]
      · rcases (genericEntries table body).get? n with _ | v <;> simp [hn, hc]
    · simp [hn]
  · refine List.mem_append.trans (or_congr Iff.rfl (mem_unreadIssues.trans ?_))
    rw [mem_readGenerics]
    simp

end Decode

section Sections

namespace Profile

/-- The sections with a shape of their own, with whether the profile has them. -/
def shapedSections (p : Profile) : List (String × Bool) := [
  ("backup", p.backup?.isSome),
  ("check", p.check?.isSome),
  ("copy", p.copy?.isSome),
  ("forget", p.forget?.isSome),
  ("init", p.init?.isSome),
  ("prune", p.prune?.isSome),
  ("retention", p.retention?.isSome)]

theorem definedSections_eq (p : Profile) : p.definedSections =
    ((p.shapedSections.filter (·.2)).map (·.1) ++
      (p.generic.entries.filter (·.2.isSome)).map (·.1)).mergeSort := rfl

theorem mem_definedSections : n ∈ p.definedSections ↔
    (n, true) ∈ p.shapedSections ∨ ∃ g, p.generic.get? n = some (some g) := by
  rw [definedSections_eq, (List.mergeSort_perm _ _).mem_iff, List.mem_append]
  refine or_congr ?_ ?_
  · simp
  · constructor
    · intro h
      obtain ⟨⟨m, g?⟩, he, rfl⟩ := List.mem_map.1 h
      obtain ⟨hmem, hsome⟩ := List.mem_filter.1 he
      obtain ⟨g, rfl⟩ := Option.isSome_iff_exists.1 hsome
      exact ⟨g, Table.get?_of_mem hmem⟩
    · rintro ⟨g, hg⟩
      exact List.mem_map.2 ⟨(n, some g), List.mem_filter.2 ⟨mem_of_entryFor? hg, rfl⟩, rfl⟩

theorem shapedSections_anchored (f : Anchoring) (find : String → List String) (q : Profile) :
    ((q.anchorWith f).expandSources find).shapedSections = q.shapedSections := by
  simp only [shapedSections, anchorWith, expandSources, Option.isSome_map]

theorem definedSections_anchored (f : Anchoring) (find : String → List String) (q : Profile) :
    ((q.anchorWith f).expandSources find).definedSections = q.definedSections := by
  rw [definedSections_eq, definedSections_eq, shapedSections_anchored]
  congr 2
  show ((q.generic.entries.map fun e => (e.1, e.2.map (·.anchor f))).filter (·.2.isSome)).map
    (·.1) = _
  rw [List.filter_map, List.map_map]
  simp only [Function.comp_def, Option.isSome_map]

theorem get?_generic_anchored (f : Anchoring) (find : String → List String) (q : Profile)
    (n : String) : ((q.anchorWith f).expandSources find).generic.get? n =
      (q.generic.get? n).map (Option.map (·.anchor f)) :=
  Table.get?_map _ q.generic n

/-- The sections of a profile come in ascending order, unless one with a shape is generic too. -/
theorem pairwise_definedSections
    (h : ∀ n, (n, true) ∈ p.shapedSections → ∀ g, p.generic.get? n ≠ some (some g)) :
    p.definedSections.Pairwise (· < ·) := by
  have hshaped : ((p.shapedSections.filter (·.2)).map (·.1)).Nodup :=
    (List.filter_sublist.map _).nodup
      (show ["backup", "check", "copy", "forget", "init", "prune", "retention"].Nodup by decide)
  have hgeneric : ((p.generic.entries.filter (·.2.isSome)).map (·.1)).Nodup :=
    (List.filter_sublist.map _).nodup p.generic.nodup_keys
  rw [definedSections_eq]
  refine Table.ascending_mergeSort (List.nodup_append.2 ⟨hshaped, hgeneric, fun m hm k hk => ?_⟩)
  rintro rfl
  obtain ⟨⟨m, g?⟩, he, rfl⟩ := List.mem_map.1 hk
  obtain ⟨hmem, hsome⟩ := List.mem_filter.1 he
  obtain ⟨g, rfl⟩ := Option.isSome_iff_exists.1 hsome
  exact h _ (by simpa using hm) g (Table.get?_of_mem hmem)

end Profile

/-- A section with a shape is read from an entry that is kept. -/
theorem kept_of_shaped (hn : body.keys.Nodup)
    (h : Profile.readBody (.mapping (keptEntries table body)) = .ok p)
    (hs : (n, true) ∈ p.shapedSections) :
    ∃ v, body.get? (.string n) = some v ∧ Keeps table n v := by
  obtain ⟨es, hes, rfl, -⟩ := entries_of_readBody hn h
  have hread : ∀ {α : Type} {m : String} {r : Reader (Option α)},
      (es.read m r none).isSome = true → ∃ v, body.get? (.string m) = some v ∧ Keeps table m v :=
    fun hsome => by
      obtain ⟨a, ha⟩ := Option.isSome_iff_exists.1 hsome
      obtain ⟨v, hv, -⟩ := Entries.get?_of_read ha
      exact ⟨v, (get?_of_keptEntries hn hes).1 hv⟩
  have hall : ∀ e ∈ (Profile.ofEntries es).shapedSections, e.2 = true →
      ∃ v, body.get? (.string e.1) = some v ∧ Keeps table e.1 v := by
    simp only [Profile.shapedSections, List.forall_mem_cons]
    and_intros <;> first
      | exact hread
      | simp
  exact hall _ hs rfl

end Sections

/-- What a profile has of the generic sections of a table, with the issues found. -/
structure GenericAccount (table : CommandTable) (body : Mapping) (f : Anchoring) (p : Profile)
    (found : List FoundIssue) : Prop where
  /-- There is an entry for each name with a generic row. -/
  keys : ∀ n, p.generic.contains n = true ↔ n ∈ table.genericNames
  /-- For a name that stands once, this is what look-ups say. -/
  once : ∀ n, table.names.count n ≤ 1 →
    (p.generic.contains n = true ↔ table.isGeneric n = true)
  /-- A section is held where look-ups call the name generic, it has one generic row, and the value
  in the body stands for a section. -/
  held : ∀ n g, p.generic.get? n = some (some g) ↔
    table.isGeneric n = true ∧ table.genericNames.count n = 1 ∧
      ∃ v read, body.lastNamed? n = some v ∧ GenericSection.StandsFor v read ∧ g = read.anchor f
  /-- Any other value of a generic name is an issue, and a log tells it. -/
  failed : ∀ n v, table.isGeneric n = true → body.lastNamed? n = some v →
    (∀ g, ¬ GenericSection.StandsFor v g) → p.generic.get? n = some none ∧
      ∃ issue, readGeneric v = .error issue ∧ (n, issue) ∈ found ∧
        ∀ log : Issues, (log.failAll found).failed.get? n = some issue
  /-- No other generic name has an issue. -/
  unfailed : ∀ n, table.isGeneric n = true →
    (∀ v, body.lastNamed? n = some v → ∃ g, GenericSection.StandsFor v g) →
    ∀ issue, (n, issue) ∉ found
  /-- The sections of the profile are listed in ascending order, none of them twice. -/
  sorted : p.definedSections.Pairwise (· < ·)

section Account

/-- A generic section that a body is read to. -/
theorem get?_generic_of_decode (h : (decode table name body).result = .ok q)
    {g : GenericSection} : q.generic.get? n = some (some g) ↔
      table.isGeneric n = true ∧ table.genericNames.count n = 1 ∧
        ∃ v, body.lastNamed? n = some v ∧ GenericSection.StandsFor v g := by
  obtain ⟨p, -, -, hget, -⟩ := decode_of_rows h
  rw [hget, get?_genericEntries_any]
  simp only [← readGeneric_eq_ok_iff]
  by_cases hg : table.isGeneric n = true
  · have hmem := CommandTable.mem_genericNames_of_isGeneric hg
    have hpos := List.count_pos_iff.2 hmem
    by_cases hc : 1 < table.genericNames.count n
    · have hne : table.genericNames.count n ≠ 1 := by omega
      simp [hc, hne]
    · have heq : table.genericNames.count n = 1 := by omega
      simp [hg, hmem, heq, Option.bind_eq_some_iff, toOption_eq_some]
  · simp [hg]

/-- An issue of a generic section. -/
theorem mem_issues_of_decode (h : (decode table name body).result = .ok q)
    (hg : table.isGeneric n = true) : (n, issue) ∈ (decode table name body).issues ↔
      ∃ v, body.lastNamed? n = some v ∧ readGeneric v = .error issue := by
  obtain ⟨p, -, -, -, hissues⟩ := decode_of_rows h
  rw [hissues, get?_genericEntries_any, if_pos hg]
  simp [notMem_refusedEntries hg, CommandTable.mem_genericNames_of_isGeneric hg]

/-- A generic section that cannot be read is left out, and its issue is the only one. -/
theorem failed_of_decode (h : (decode table name body).result = .ok q)
    (hg : table.isGeneric n = true) (hv : body.lastNamed? n = some v)
    (hr : readGeneric v = .error issue) : q.generic.get? n = some none ∧
      (n, issue) ∈ (decode table name body).issues ∧
      ∀ log : Issues, (log.failAll (decode table name body).issues).failed.get? n =
        some issue := by
  have hmem : (n, issue) ∈ (decode table name body).issues :=
    (mem_issues_of_decode h hg).2 ⟨v, hv, hr⟩
  refine ⟨?_, hmem, Issues.get?_failAll_of_mem (fun e he hname => ?_) hmem⟩
  · obtain ⟨p, -, -, hget, -⟩ := decode_of_rows h
    rw [hget, if_pos (CommandTable.mem_genericNames_of_isGeneric hg), get?_genericEntries_any,
      if_pos hg, hv, Option.bind_some, hr]
    simp [Except.toOption]
  · obtain ⟨m, other⟩ := e
    obtain rfl : m = n := hname
    obtain ⟨w, hw, hother⟩ := (mem_issues_of_decode h hg).1 he
    rw [hv, Option.some.injEq] at hw
    rw [← hw, hr] at hother
    exact (Except.error.inj hother).symm

/-- A section with a shape is no generic one, so none is listed twice. -/
theorem sorted_of_decode (hn : body.keys.Nodup) (h : (decode table name body).result = .ok q) :
    q.definedSections.Pairwise (· < ·) := by
  refine Profile.pairwise_definedSections fun n hs g hg => ?_
  have hgeneric : table.isGeneric n = true := ((get?_generic_of_decode h).1 hg).1
  obtain ⟨p, hp, hq, -⟩ := decode_of_rows h
  rw [hq] at hs
  obtain ⟨v, -, hkept⟩ := kept_of_shaped hn hp hs
  rw [hkept.1] at hgeneric
  cases hgeneric

/-- What a body is read to accounts for the generic sections, anchored or not. -/
theorem genericAccount_of_decode (hn : body.keys.Nodup)
    (h : (decode table name body).result = .ok q) (f : Anchoring) (find : String → List String) :
    GenericAccount table body f ((q.anchorWith f).expandSources find)
      (decode table name body).issues := by
  obtain ⟨p, -, -, hget, -⟩ := decode_of_rows h
  have hkeys : ∀ n, ((q.anchorWith f).expandSources find).generic.contains n = true ↔
      n ∈ table.genericNames := fun n => by
    rw [Table.contains, Profile.get?_generic_anchored, hget]
    by_cases hn : n ∈ table.genericNames <;> simp [hn]
  refine ⟨hkeys, fun n hc => ?once, fun n g => ?held, fun n v hg hv hno => ?failed,
    fun n hg hall issue hi => ?unfailed, ?sorted⟩
  case once => rw [hkeys, CommandTable.mem_genericNames_iff hc]
  case held =>
    rw [Profile.get?_generic_anchored, Option.map_eq_some_iff]
    constructor
    · rintro ⟨g?, hg?, hmap⟩
      obtain ⟨read, rfl, rfl⟩ := Option.map_eq_some_iff.1 hmap
      obtain ⟨hg, hc, v, hv, hs⟩ := (get?_generic_of_decode h).1 hg?
      exact ⟨hg, hc, v, read, hv, hs, rfl⟩
    · rintro ⟨hg, hc, v, read, hv, hs, rfl⟩
      exact ⟨some read, (get?_generic_of_decode h).2 ⟨hg, hc, v, hv, hs⟩, rfl⟩
  case failed =>
    rcases hr : readGeneric v with issue | g
    · obtain ⟨hnone, hmem, hlog⟩ := failed_of_decode h hg hv hr
      exact ⟨by rw [Profile.get?_generic_anchored, hnone]; rfl, issue, rfl, hmem, hlog⟩
    · exact absurd (readGeneric_eq_ok_iff.1 hr) (hno g)
  case unfailed =>
    obtain ⟨v, hv, hr⟩ := (mem_issues_of_decode h hg).1 hi
    obtain ⟨g, hs⟩ := hall v hv
    rw [readGeneric_eq_ok_iff.2 hs] at hr
    cases hr
  case sorted =>
    rw [Profile.definedSections_anchored]
    exact sorted_of_decode hn h

end Account

namespace Config

variable {c : Config} {s : Surroundings}

/-- The generic sections of a profile that is resolved, under any table. -/
theorem generics_of_resolve (h : (c.resolve s name).result = .ok p) :
    ∃ body, mergedBody c.profiles name = .ok body ∧
      GenericAccount c.table body (Path.anchored s.home? c.rootFolder) p
        (c.resolve s name).issues := by
  obtain ⟨body, q, hbody, hq, rfl⟩ := of_resolve h
  refine ⟨body, hbody, ?_⟩
  rw [resolve_of_mergedBody hbody]
  exact genericAccount_of_decode (tidy_mergedBody hbody).nodup hq _ _

def repeatedBody : Mapping := [
  (.string "ls", .mapping []),
  (.string "tag", .mapping [(.string "last", .string "x")]),
  (.string "stats", .bool true)]

/-- A table that names a section twice, with a profile that has it. -/
def repeated : Config where
  file := ""
  document := ⟨[(.string "default", .mapping repeatedBody)]⟩
  table := ⟨["ls", "tag", "stats", "ls"].map (CommandTable.plain · false)⟩

theorem mergedBody_repeated : mergedBody repeated.profiles "default" = .ok repeatedBody := by
  have hroot : repeated.profiles = repeated.document.root := by decide
  rw [hroot, mergedBody, ancestry, ancestryFrom_last (by decide) rfl rfl (by decide)]
  exact toOption_eq_some.1 (by decide +kernel)

theorem resolve_repeated : ∃ p, (repeated.resolve default "default").result = .ok p ∧
    p.generic.get? "ls" = some none ∧
    (repeated.resolve default "default").issues = [("stats", .notMap .bool)] := by
  rw [resolve, mergedBody_repeated]
  exact ⟨_, rfl, by decide +kernel, by decide +kernel⟩

theorem generics_of_resolve_repeated :
    ∃ p body, (repeated.resolve default "default").result = .ok p ∧
      GenericAccount repeated.table body (Path.anchored none repeated.rootFolder) p
        (repeated.resolve default "default").issues := by
  obtain ⟨p, hp, -⟩ := resolve_repeated
  obtain ⟨body, -, haccount⟩ := generics_of_resolve hp
  exact ⟨p, body, hp, haccount⟩

/-- A section that look-ups call generic is lost where two rows have its name: its value stands for
a section, the profile has none, and there is no issue. -/
theorem generic_lost : repeated.table.isGeneric "ls" = true ∧
    mergedBody repeated.profiles "default" = .ok repeatedBody ∧
    repeatedBody.lastNamed? "ls" = some (.mapping []) ∧
    GenericSection.StandsFor (.mapping []) .empty ∧
    ∃ p, (repeated.resolve default "default").result = .ok p ∧
      p.generic.get? "ls" = some none ∧
      ∀ issue, ("ls", issue) ∉ (repeated.resolve default "default").issues := by
  obtain ⟨p, hp, hlost, hissues⟩ := resolve_repeated
  refine ⟨by decide, mergedBody_repeated, rfl, Or.inr ⟨[], rfl, ?_⟩, p, hp, hlost, ?_⟩
  · rfl
  · simp [hissues]

end Config

end BackupProfiles
