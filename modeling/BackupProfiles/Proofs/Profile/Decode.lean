import BackupProfiles.Proofs.Mapping.Values
import BackupProfiles.Proofs.Reading.Accept

/-!
# Splitting a body

The entries of a body are split by their names and values: generic sections, entries that are
refused, and entries that are kept (`EntryRole.of_string`). With texts as keys and no key twice, the
parts are described by look-ups (`mem_keptEntries`, `get?_genericEntries`, `mem_refusedEntries`),
and so is what a body is read to (`decode_of_ok`). Rewriting values in a way that changes what becomes
of no entry (`KeepsRoles`) rewrites each part alone.
-/

namespace BackupProfiles

variable {es : Entries} {n name : String} {key v : Value} {table : CommandTable}

/-- The mapping with texts as keys. -/
def Entries.toMapping (es : Entries) : Mapping := es.map fun e => (.string e.1, e.2)

/-- Whether an entry of a body is read as a field or a flag. -/
def Keeps (table : CommandTable) (n : String) (v : Value) : Prop :=
  table.isGeneric n = false ∧
    ((table.contains n = true ∨ n = "env") ∨ ∃ x, FlagValue.ofValue v = .ok x)

/-- Whether an entry of a body is refused for a reason. -/
def Refuses (table : CommandTable) (n : String) (v : Value) (why : FlagValue.Refusal) : Prop :=
  table.isGeneric n = false ∧ table.contains n = false ∧ n ≠ "env" ∧
    FlagValue.ofValue v = .error why

/-- The issue of an entry that is refused. -/
def refusal? (table : CommandTable) (n : String) (v : Value) : Option SectionIssue :=
  match EntryRole.of table (.string n) v with
  | .refused _ why => some (.unusable why)
  | _ => none

/-- The issue of a generic section that cannot be read. -/
def unread? (values : Table Value) (n : String) : Option SectionIssue :=
  match (values.get? n).map readGeneric with
  | some (.error issue) => some issue
  | _ => none

namespace EntryRole

theorem of_string (table : CommandTable) (n : String) (v : Value) :
    (table.isGeneric n = true ∧ EntryRole.of table (.string n) v = .generic n) ∨
    (Keeps table n v ∧ EntryRole.of table (.string n) v = .kept) ∨
    ∃ why, Refuses table n v why ∧ EntryRole.of table (.string n) v = .refused n why := by
  unfold EntryRole.of Keeps Refuses
  simp only [Value.keyText]
  rcases hg : table.isGeneric n with _ | _
  · by_cases hk : table.contains n = true ∨ n = "env"
    · have hb : (table.contains n || n == "env") = true := by simpa using hk
      exact Or.inr (Or.inl ⟨⟨rfl, Or.inl hk⟩, by simp [hb]⟩)
    · have hb : (table.contains n || n == "env") = false := by simpa using hk
      rw [not_or, Bool.not_eq_true] at hk
      rcases hv : FlagValue.ofValue v with why | x
      · exact Or.inr (Or.inr ⟨why, ⟨rfl, hk.1, hk.2, rfl⟩, by simp [hb]⟩)
      · exact Or.inr (Or.inl ⟨⟨rfl, Or.inr ⟨x, rfl⟩⟩, by simp [hb]⟩)
  · exact Or.inl ⟨rfl, rfl⟩

theorem cases (table : CommandTable) (n : String) (v : Value) :
    table.isGeneric n = true ∨ Keeps table n v ∨ ∃ why, Refuses table n v why :=
  (of_string table n v).imp And.left (Or.imp And.left fun ⟨why, h, _⟩ => ⟨why, h⟩)

theorem of_eq_kept : EntryRole.of table (.string n) v = .kept ↔ Keeps table n v := by
  rcases of_string table n v with ⟨hg, hr⟩ | ⟨hk, hr⟩ | ⟨why, hw, hr⟩
  · simp [hr, Keeps, hg]
  · simp [hr, hk]
  · simp [hr, Keeps, hw.1, hw.2.1, hw.2.2.1, hw.2.2.2]

end EntryRole

theorem Keeps.not_refuses {why : FlagValue.Refusal} (h : Keeps table n v) :
    ¬ Refuses table n v why := by
  rintro ⟨-, hc, he, hw⟩
  rcases h.2 with (hk | hk) | ⟨x, hx⟩
  · rw [hc] at hk
    cases hk
  · exact he hk
  · rw [hw] at hx
    cases hx

namespace EntryRole

/-- An entry is taken by the text of its key. -/
theorem of_keyText (hk : key.keyText = some n) (table : CommandTable) (v : Value) :
    EntryRole.of table key v = EntryRole.of table (.string n) v := by
  rw [EntryRole.of, EntryRole.of, hk]
  rfl

/-- Of a value, only whether and why it is refused as a flag matters. -/
theorem of_congr {w : Value} (h : (FlagValue.ofValue v).map (fun _ => ()) =
    (FlagValue.ofValue w).map fun _ => ()) (table : CommandTable) (key : Value) :
    EntryRole.of table key v = EntryRole.of table key w := by
  unfold EntryRole.of
  rcases hv : FlagValue.ofValue v with why | x <;>
    rcases hw : FlagValue.ofValue w with other | y <;> rw [hv, hw] at h
  · cases h
    rfl
  · cases h
  · cases h

theorem of_eq_generic :
    EntryRole.of table key v = .generic n ↔ key.keyText = some n ∧ table.isGeneric n = true := by
  rcases hk : key.keyText with _ | m
  · simp [EntryRole.of, hk]
  · rw [of_keyText hk, Option.some.injEq]
    rcases of_string table m v with ⟨hg, hr⟩ | ⟨hkeep, hr⟩ | ⟨why, hw, hr⟩
    · rw [hr, EntryRole.generic.injEq]
      exact ⟨fun h => ⟨h, h ▸ hg⟩, And.left⟩
    · rw [hr]
      refine ⟨fun h => (by cases h), ?_⟩
      rintro ⟨rfl, hg⟩
      rw [hkeep.1] at hg
      cases hg
    · rw [hr]
      refine ⟨fun h => (by cases h), ?_⟩
      rintro ⟨rfl, hg⟩
      rw [hw.1] at hg
      cases hg

theorem of_eq_refused {why : FlagValue.Refusal} :
    EntryRole.of table key v = .refused n why ↔
      key.keyText = some n ∧ Refuses table n v why := by
  rcases hk : key.keyText with _ | m
  · simp [EntryRole.of, hk]
  · rw [of_keyText hk, Option.some.injEq]
    rcases of_string table m v with ⟨hg, hr⟩ | ⟨hkeep, hr⟩ | ⟨other, hw, hr⟩
    · rw [hr]
      refine ⟨nofun, ?_⟩
      rintro ⟨rfl, hno, -⟩
      rw [hno] at hg
      cases hg
    · rw [hr]
      refine ⟨nofun, ?_⟩
      rintro ⟨rfl, hw⟩
      exact absurd hw hkeep.not_refuses
    · rw [hr, EntryRole.refused.injEq]
      constructor
      · rintro ⟨rfl, rfl⟩
        exact ⟨rfl, hw⟩
      · rintro ⟨rfl, hw'⟩
        exact ⟨rfl, Except.error.inj (hw.2.2.2.symm.trans hw'.2.2.2)⟩

end EntryRole

section Entries

theorem Entries.toMapping_ofMapping {m : Mapping} (hp : (Value.mapping m).Plain) :
    (Entries.ofMapping m).toMapping = m :=
  map_ofMapping hp

theorem mem_keptEntries {body : Mapping} : (.string n, v) ∈ keptEntries table body ↔
    (.string n, v) ∈ body ∧ Keeps table n v := by
  rw [keptEntries, List.mem_filter, beq_iff_eq, EntryRole.of_eq_kept]

theorem genericEntries_eq (table : CommandTable) (es : Entries) :
    genericEntries table es.toMapping =
      Table.ofList (es.filter fun e => table.isGeneric e.1) := by
  rw [genericEntries, Entries.toMapping, List.filterMap_map]
  congr 1
  induction es with
  | nil => rfl
  | cons e rest ih =>
    rw [List.filterMap_cons, ih, Function.comp_apply, List.filter_cons]
    rcases EntryRole.of_string table e.1 e.2 with ⟨hg, hr⟩ | ⟨hk, hr⟩ | ⟨why, hw, hr⟩
    · simp [hr, hg]
    · simp [hr, hk.1]
    · simp [hr, hw.1]

theorem get?_genericEntries_toMapping (hn : (es.map (·.1)).Nodup) (n : String) :
    (genericEntries table es.toMapping).get? n =
      if table.isGeneric n = true then es.get? n else none := by
  rw [genericEntries_eq, Table.get?_ofList_of_nodup (hn.sublist (List.filter_sublist.map _)),
    entryFor?_filter, Entries.get?_eq]

theorem refusedEntries_eq (table : CommandTable) (es : Entries) :
    refusedEntries table es.toMapping =
      es.filterMap fun e => (refusal? table e.1 e.2).map (e.1, ·) := by
  rw [refusedEntries, Entries.toMapping, List.filterMap_map]
  refine List.filterMap_congr fun e _ => ?_
  rw [Function.comp_apply, refusal?]
  rcases EntryRole.of_string table e.1 e.2 with ⟨hg, hr⟩ | ⟨hk, hr⟩ | ⟨why, hw, hr⟩ <;> simp [hr]

theorem mem_refusedEntries_iff {body : Mapping} {issue : SectionIssue} :
    (n, issue) ∈ refusedEntries table body ↔
      ∃ key v why, (key, v) ∈ body ∧ key.keyText = some n ∧ Refuses table n v why ∧
        issue = .unusable why := by
  rw [refusedEntries, List.mem_filterMap]
  constructor
  · rintro ⟨⟨key, v⟩, he, hissue⟩
    rcases hr : EntryRole.of table key v with m | _ | ⟨m, why⟩ | _ <;> simp only [hr] at hissue
    all_goals try cases hissue
    obtain ⟨hk, hw⟩ := EntryRole.of_eq_refused.1 hr
    exact ⟨key, v, why, he, hk, hw, rfl⟩
  · rintro ⟨key, v, why, he, hk, hw, rfl⟩
    exact ⟨(key, v), he, by simp only [EntryRole.of_eq_refused.2 ⟨hk, hw⟩]⟩

theorem nodup_refusedEntries_toMapping (hn : (es.map (·.1)).Nodup) :
    ((refusedEntries table es.toMapping).map (·.1)).Nodup := by
  rw [refusedEntries_eq]
  exact nodup_filterMap hn _

end Entries

section Body

variable {body : Mapping}

theorem plain_keptEntries (hp : (Value.mapping body).Plain) (table : CommandTable) :
    (Value.mapping (keptEntries table body)).Plain :=
  hp.of_subset List.filter_sublist.subset

theorem nodup_keptEntries (hn : body.keys.Nodup) (table : CommandTable) :
    (Mapping.keys (keptEntries table body)).Nodup :=
  Mapping.nodup_filter hn _

/-- The entries that are kept, where all of them have texts as keys. -/
theorem get?_of_keptEntries (hn : body.keys.Nodup) (hes : keptEntries table body = es.toMapping) :
    es.get? n = some v ↔ body.get? (.string n) = some v ∧ Keeps table n v := by
  rw [← Entries.get?_map_string, ← Entries.toMapping, ← hes,
    Mapping.get?_eq_some_iff (nodup_keptEntries hn table), mem_keptEntries,
    Mapping.get?_eq_some_iff hn]

theorem get?_keptEntries (hp : (Value.mapping body).Plain) (ht : (Value.mapping body).Tidy) :
    (Entries.ofMapping (keptEntries table body)).get? n = some v ↔
      body.get? (.string n) = some v ∧ Keeps table n v :=
  get?_of_keptEntries ht.nodup (Entries.toMapping_ofMapping (plain_keptEntries hp table)).symm

theorem get?_genericEntries (hp : (Value.mapping body).Plain) (ht : (Value.mapping body).Tidy)
    (table : CommandTable) (n : String) : (genericEntries table body).get? n =
      if table.isGeneric n = true then body.get? (.string n) else none := by
  rw [← Entries.toMapping_ofMapping hp,
    get?_genericEntries_toMapping (Entries.nodup_ofMapping hp ht.nodup), Entries.get?_ofMapping hp,
    Entries.toMapping_ofMapping hp]

theorem mem_refusedEntries (hp : (Value.mapping body).Plain) (ht : (Value.mapping body).Tidy)
    {issue : SectionIssue} : (n, issue) ∈ refusedEntries table body ↔
      ∃ v why, body.get? (.string n) = some v ∧ Refuses table n v why ∧ issue = .unusable why := by
  rw [mem_refusedEntries_iff]
  simp only [Mapping.get?_eq_some_iff ht.nodup]
  constructor
  · rintro ⟨key, v, why, he, hk, hw, rfl⟩
    obtain ⟨m, rfl⟩ := hp.key_eq he
    obtain rfl := Option.some.inj hk
    exact ⟨v, why, he, hw, rfl⟩
  · rintro ⟨v, why, he, hw, rfl⟩
    exact ⟨_, v, why, he, rfl, hw, rfl⟩

theorem nodup_refusedEntries (hp : (Value.mapping body).Plain) (ht : (Value.mapping body).Tidy)
    (table : CommandTable) : ((refusedEntries table body).map (·.1)).Nodup := by
  rw [← Entries.toMapping_ofMapping hp]
  exact nodup_refusedEntries_toMapping (Entries.nodup_ofMapping hp ht.nodup)

end Body

section Generics

variable {values : Table Value}

theorem readGenerics_eq (values : Table Value) : ∀ {used names : List String}, names.Nodup →
    (∀ n ∈ names, n ∉ used) →
    readGenerics values used names = names.map fun n => (n, (values.get? n).map readGeneric)
  | _, [], _, _ => rfl
  | used, n :: rest, hn, hu => by
    rw [List.nodup_cons] at hn
    rw [List.forall_mem_cons] at hu
    rw [readGenerics, if_neg (by simpa using hu.1), List.map_cons]
    refine congrArg _ (readGenerics_eq values hn.2 fun m hm hused => ?_)
    rcases List.mem_cons.1 hused with rfl | hused
    · exact hn.1 hm
    · exact hu.2 m hm hused

theorem readGeneric_ne_unusable (v : Value) (why : FlagValue.Refusal) :
    readGeneric v ≠ .error (.unusable why) := by
  cases v with
  | mapping m =>
    rw [readGeneric]
    rcases GenericSection.read (.mapping m) with f | g <;> simp
  | _ => simp [readGeneric]

theorem unread?_eq_some {issue : SectionIssue} :
    unread? values n = some issue ↔ ∃ v, values.get? n = some v ∧ readGeneric v = .error issue := by
  unfold unread?
  rcases values.get? n with _ | v
  · simp
  · rcases hr : readGeneric v with why | g <;> simp [hr]

/-- The issues of the generic sections. -/
def unreadEntries (values : Table Value) (names : List String) : List FoundIssue :=
  names.filterMap fun n => (unread? values n).map (n, ·)

theorem mem_unreadEntries {names : List String} {issue : SectionIssue} :
    (n, issue) ∈ unreadEntries values names ↔
      n ∈ names ∧ ∃ v, values.get? n = some v ∧ readGeneric v = .error issue := by
  rw [unreadEntries, List.mem_filterMap, ← unread?_eq_some]
  constructor
  · rintro ⟨m, hm, h⟩
    obtain ⟨found, hf, heq⟩ := Option.map_eq_some_iff.1 h
    obtain ⟨rfl, rfl⟩ := Prod.mk.inj heq
    exact ⟨hm, hf⟩
  · rintro ⟨hm, hf⟩
    exact ⟨n, hm, by rw [hf, Option.map_some]⟩

theorem nodup_unreadEntries {names : List String} (hn : names.Nodup) :
    ((unreadEntries values names).map (·.1)).Nodup := by
  have hpairs : unreadEntries values names = (names.map fun n => (n, n)).filterMap
      fun e => (unread? values e.2).map (e.1, ·) := by
    rw [List.filterMap_map]
    rfl
  rw [hpairs]
  exact nodup_filterMap (by simpa [List.map_map, Function.comp_def] using hn)
    fun _ m => unread? values m

end Generics

section Kept

variable {body : Mapping} {p : Profile}

theorem Entries.nodup_of_toMapping (hn : (Mapping.keys es.toMapping).Nodup) :
    (es.map (·.1)).Nodup := by
  rw [toMapping, Mapping.keys, List.map_map] at hn
  exact List.Nodup.of_map Value.string (by rwa [List.map_map])

theorem Shape.readOpen_eq_ok_iff {σ : Type} {s : Shape} {build : Entries → σ} {m : Mapping}
    {a : σ} : s.readOpen build (.mapping m) = .ok a ↔
      s.fault? m = none ∧ a = build (Entries.ofMapping m) := by
  simp only [readOpen, Value.untagged]
  rcases s.fault? m with _ | f <;> simp [eq_comm]

/-- A key that is kept has a text, so it has no tag. -/
theorem string_of_mem_keptEntries {e : Value × Value} (he : e ∈ keptEntries table body)
    (hs : e.1.untagged = .string n) : e.1 = .string n := by
  have hkept : EntryRole.of table e.1 e.2 = .kept := by simpa using (List.mem_filter.1 he).2
  obtain ⟨key, v⟩ := e
  cases key with
  | tagged tag content => simp [EntryRole.of, Value.keyText] at hkept
  | _ => exact hs

/-- What a body that is read was read from. -/
theorem entries_of_readBody (hn : body.keys.Nodup)
    (h : Profile.readBody (.mapping (keptEntries table body)) = .ok p) :
    ∃ es : Entries, keptEntries table body = es.toMapping ∧ p = Profile.ofEntries es ∧
      ∀ e ∈ es, Profile.shape.Accepts e.1 e.2 := by
  obtain ⟨hfault, hp⟩ := Shape.readOpen_eq_ok_iff.1 h
  have hown : Shape.ownFault? Profile.shape.own [] (keptEntries table body) = none :=
    (Option.or_eq_none_iff.1 (Option.or_eq_none_iff.1 hfault).1).1
  have hes : (Entries.ofMapping (keptEntries table body)).toMapping = keptEntries table body :=
    Entries.map_ofMapping_of_texts fun e he =>
      (Shape.untagged_key_of_ownFault?_eq_none hown e he).imp fun _ => string_of_mem_keptEntries he
  have hnodup := Entries.nodup_of_toMapping (hes.symm ▸ nodup_keptEntries hn table)
  refine ⟨_, hes.symm, hp, (Shape.fault?_map_string_eq_none_iff hnodup).1 ?_⟩
  rwa [← Entries.toMapping, hes]

theorem readBody_of_entries (hn : body.keys.Nodup) (hes : keptEntries table body = es.toMapping)
    (ha : ∀ e ∈ es, Profile.shape.Accepts e.1 e.2) :
    Profile.readBody (.mapping (keptEntries table body)) = .ok (Profile.ofEntries es) := by
  have hnodup := Entries.nodup_of_toMapping (hes ▸ nodup_keptEntries hn table)
  rw [hes]
  exact Shape.readOpen_eq_ok_iff.2 ⟨(Shape.fault?_map_string_eq_none_iff hnodup).2 ha,
    by rw [Entries.toMapping, Entries.ofMapping_map_string]⟩

end Kept

section Results

variable {body : Mapping} {f : Fault} {p q : Profile}

theorem decode_of_fault (h : Profile.readBody (.mapping (keptEntries table body)) = .error f) :
    decode table name body = ⟨.error f, refusedEntries table body⟩ := by
  unfold decode
  rw [h]

theorem decode_of_read (hg : table.genericNames.Nodup)
    (h : Profile.readBody (.mapping (keptEntries table body)) = .ok p) :
    decode table name body = ⟨.ok { p with
      name := name
      generic := Table.ofList (table.genericNames.map fun n =>
        (n, ((genericEntries table body).get? n).bind fun v => (readGeneric v).toOption)) },
      refusedEntries table body ++
        unreadEntries (genericEntries table body) table.genericNames⟩ := by
  have hsections : readGenerics (genericEntries table body) [] table.genericNames =
      table.genericNames.map fun n => (n, ((genericEntries table body).get? n).map readGeneric) :=
    readGenerics_eq _ hg (by simp)
  unfold decode
  rw [h]
  dsimp only
  rw [hsections]
  refine congrArg₂ Decoded.mk ?_ (congrArg _ ?_)
  · rw [List.map_map]
    refine congrArg (fun l => Except.ok { p with name := name, generic := Table.ofList l })
      (List.map_congr_left fun n _ => ?_)
    rw [Function.comp_apply]
    rcases (genericEntries table body).get? n with _ | v <;> rfl
  · rw [List.filterMap_map, unreadEntries]
    refine List.filterMap_congr fun n _ => ?_
    rw [Function.comp_apply, unread?]
    rcases (genericEntries table body).get? n with _ | v
    · rfl
    · rw [Option.map_some]
      rcases readGeneric v with issue | g <;> rfl

/-- The generic sections and the issues of a body that is read. -/
theorem decode_of_ok (hg : table.genericNames.Nodup)
    (h : (decode table name body).result = .ok q) :
    ∃ p, Profile.readBody (.mapping (keptEntries table body)) = .ok p ∧
      q = { p with
        name := name
        generic := Table.ofList (table.genericNames.map fun n =>
          (n, ((genericEntries table body).get? n).bind fun v => (readGeneric v).toOption)) } ∧
      (decode table name body).issues = refusedEntries table body ++
        unreadEntries (genericEntries table body) table.genericNames := by
  rcases hp : Profile.readBody (.mapping (keptEntries table body)) with f | p
  · rw [decode_of_fault hp] at h
    cases h
  · rw [decode_of_read hg hp] at h ⊢
    exact ⟨p, rfl, (Except.ok.inj h).symm, rfl⟩

end Results

section Rewritten

variable {f : Value → Value → Value} {g : Value → Value}

/-- A rewriting of values that changes what becomes of no entry. -/
def KeepsRoles (table : CommandTable) (f : Value → Value → Value) : Prop :=
  ∀ key v, EntryRole.of table key (f key v) = EntryRole.of table key v

theorem keptEntries_mapValues (h : KeepsRoles table f) (body : Mapping) :
    keptEntries table (body.mapValues f) = Mapping.mapValues f (keptEntries table body) :=
  Mapping.filter_mapValues _ fun e _ => by rw [h]

theorem refusedEntries_mapValues (h : KeepsRoles table f) (body : Mapping) :
    refusedEntries table (body.mapValues f) = refusedEntries table body := by
  unfold refusedEntries Mapping.mapValues
  rw [List.filterMap_map]
  refine List.filterMap_congr fun e _ => ?_
  simp only [Function.comp_apply, h e.1 e.2]

/-- Generic sections are read alike if the rewriting makes no difference to what they are read to. -/
theorem genericEntries_mapValues {β : Type} {g : Value → β} (h : KeepsRoles table f)
    (hg : ∀ key v n, key.keyText = some n → table.isGeneric n = true → g (f key v) = g v)
    (body : Mapping) :
    (genericEntries table (body.mapValues f)).map g = (genericEntries table body).map g := by
  unfold genericEntries Mapping.mapValues
  rw [Table.map_ofList, Table.map_ofList, List.filterMap_map, List.map_filterMap,
    List.map_filterMap]
  refine congrArg _ (List.filterMap_congr fun e _ => ?_)
  simp only [Function.comp_apply, h e.1 e.2]
  rcases hrole : EntryRole.of table e.1 e.2 with n | _ | ⟨n, why⟩ | _
  · obtain ⟨hk, hgeneric⟩ := EntryRole.of_eq_generic.1 hrole
    simp only [Option.map_some, hg e.1 e.2 n hk hgeneric]
  · rfl
  · rfl
  · rfl

end Rewritten

end BackupProfiles
