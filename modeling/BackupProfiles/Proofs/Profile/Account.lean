import BackupProfiles.Proofs.Document.Plain
import BackupProfiles.Proofs.Issues
import BackupProfiles.Proofs.Profile.Decode

/-!
# What becomes of the keys of a profile

Each key of a merged body is a field, a generic section, a flag or an issue, and nothing else ends
up in the profile or among the issues (`account_of_decode`). The flags of a section are likewise the
keys of its value that are no fields of it (`accounts_sectionFlags?`).
-/

namespace BackupProfiles

namespace CommandTable

theorem mem_genericNames_of_isGeneric {table : CommandTable} {n : String}
    (h : table.isGeneric n = true) : n ∈ table.genericNames := by
  rw [isGeneric] at h
  rcases hf : table.find? n with _ | row
  · rw [hf] at h
    cases h
  · rw [hf, Option.any_some] at h
    have hname : row.name = n := by simpa using List.find?_some hf
    rw [genericNames, ← hname]
    exact List.mem_map_of_mem (List.mem_filter.2 ⟨List.mem_of_find?_eq_some hf, h⟩)

theorem contains_iff_mem_names {table : CommandTable} {n : String} :
    table.contains n = true ↔ n ∈ table.names := by
  rw [contains, find?, List.find?_isSome, names, List.mem_map]
  simp

theorem nodup_genericNames_builtin : builtin.genericNames.Nodup := by decide

theorem isGeneric_builtin {n : String} : builtin.isGeneric n = true ↔ n ∈ builtin.genericNames := by
  refine ⟨mem_genericNames_of_isGeneric, fun h => ?_⟩
  revert n
  decide

/-- A command with a shape of its own is a field of a profile. -/
theorem mem_fieldNames_of_contains {n : String} (h : builtin.contains n = true)
    (hg : builtin.isGeneric n = false) : n ∈ Profile.shape.fieldNames := by
  rw [contains_iff_mem_names] at h
  revert n
  decide

theorem notMem_fieldNames_of_isGeneric {n : String} (h : builtin.isGeneric n = true) :
    n ∉ Profile.shape.fieldNames := by
  rw [isGeneric_builtin] at h
  revert n
  decide

end CommandTable

section Readers

variable {v : Value}

/-- Whether a value can stand in a flag. -/
def FlagValue.Fits (v : Value) : Prop := ∃ x, ofValue v = .ok x

theorem fits_of_text {s : String} (h : Reader.text v = .ok s) : FlagValue.Fits v := by
  rw [Reader.text] at h
  split at h
  · rename_i s' hs
    exact ⟨.text s', by rw [← FlagValue.ofValue_untagged, hs, FlagValue.ofValue]⟩
  · cases h

theorem fits_of_switch {b : Bool} (h : Reader.switch v = .ok b) : FlagValue.Fits v := by
  rw [Reader.switch] at h
  split at h
  · rename_i b' hb
    exact ⟨.switch b', by rw [← FlagValue.ofValue_untagged, hb, FlagValue.ofValue]⟩
  · cases h

theorem ofItem_of_allTexts? : ∀ {items : List Value} {texts : List String},
    Reader.allTexts? items = some texts → items.mapM FlagValue.ofItem = .ok texts
  | [], _, h => by
    rw [← Option.some.inj h]
    rfl
  | .string s :: rest, texts, h => by
    obtain ⟨others, ho, rfl⟩ := Option.map_eq_some_iff.1 h
    rw [List.mapM_cons, ofItem_of_allTexts? ho]
    rfl
  | .null :: _, _, h | .bool _ :: _, _, h | .number _ :: _, _, h | .list _ :: _, _, h
  | .mapping _ :: _, _, h | .tagged _ _ :: _, _, h => by cases h

theorem fits_of_texts {texts : List String} (h : Reader.texts v = .ok texts) :
    FlagValue.Fits v := by
  cases v with
  | null => exact ⟨_, rfl⟩
  | string s => exact ⟨_, rfl⟩
  | list items =>
    rw [Reader.texts] at h
    split at h
    · rename_i texts' ht
      exact ⟨.list texts', by rw [FlagValue.ofValue, ofItem_of_allTexts? ht]; rfl⟩
    · cases h
  | _ => cases h

theorem fits_of_secret {s : Secret} (h : Reader.secret v = .ok s) : FlagValue.Fits v := by
  cases v with
  | null | string s | bool b | number n => exact ⟨_, rfl⟩
  | _ => cases h

theorem fits_of_verbosity {level : Nat} (h : Reader.verbosity v = .ok level) :
    FlagValue.Fits v := by
  cases v with
  | null | bool b | number n => exact ⟨_, rfl⟩
  | _ => cases h

end Readers

namespace Profile

/-- What each field of a profile was read from. -/
def decoded (p : Profile) : List (String × (Value → Prop)) := [
  ("description", fun v => Reader.text v = .ok p.description),
  ("inherit", fun v => Reader.text v = .ok p.inherit),
  ("initialize", fun v => Reader.switch v = .ok p.creates),
  ("lock", fun v => Reader.text v = .ok p.lock),
  ("force-lock", fun v => Reader.switch v = .ok p.forceLock),
  ("run-before", fun v => Reader.texts v = .ok p.runBefore),
  ("run-after", fun v => Reader.texts v = .ok p.runAfter),
  ("run-after-fail", fun v => Reader.texts v = .ok p.runAfterFail),
  ("run-finally", fun v => Reader.texts v = .ok p.runFinally),
  ("status-file", fun v => Reader.text v = .ok p.statusFile),
  ("priority", fun v => Reader.text v = .ok p.priority),
  ("env", fun v => Reader.table Reader.secret v = .ok p.env),
  ("cache-dir", fun v => Reader.text v = .ok p.cacheDir),
  ("cacert", fun v => Reader.text v = .ok p.caCert),
  ("tls-client-cert", fun v => Reader.text v = .ok p.tlsClientCert),
  ("repository", fun v => Reader.secret v = .ok p.repository),
  ("repository-file", fun v => Reader.text v = .ok p.repositoryFile),
  ("password-file", fun v => Reader.secret v = .ok p.passwordFile),
  ("password-command", fun v => Reader.secret v = .ok p.passwordCommand),
  ("key-hint", fun v => Reader.secret v = .ok p.keyHint),
  ("quiet", fun v => Reader.switch v = .ok p.quiet),
  ("verbose", fun v => Reader.verbosity v = .ok p.verbose),
  ("backup", fun v => Reader.optional BackupSection.read v = .ok p.backup?),
  ("retention", fun v => Reader.optional RetentionSection.read v = .ok p.retention?),
  ("check", fun v => Reader.optional ScheduledSection.read v = .ok p.check?),
  ("prune", fun v => Reader.optional ScheduledSection.read v = .ok p.prune?),
  ("forget", fun v => Reader.optional ScheduledSection.read v = .ok p.forget?),
  ("copy", fun v => Reader.optional CopySection.read v = .ok p.copy?),
  ("init", fun v => Reader.optional InitSection.read v = .ok p.init?)]

theorem names_decoded (p : Profile) : p.decoded.map (·.1) = shape.fieldNames := rfl

theorem decoded_ofEntries {es : Entries}
    (h : ∀ n v check, es.get? n = some v → shape.own.lookup n = some check → check v = none) :
    ∀ e ∈ (ofEntries es).decoded, ∀ v, es.get? e.1 = some v → e.2 v := by
  simp only [decoded, List.forall_mem_cons]
  and_intros <;> first
    | exact fun v hv => Entries.read_eq hv (h _ v _ hv rfl)
    | simp

/-- An entry that is read as a field is kept: it is a section or the environment, or its value could
stand in a flag. -/
theorem keeps_of_decoded (p : Profile) : ∀ e ∈ p.decoded, ∀ v, e.2 v → Keeps .builtin e.1 v := by
  simp only [decoded, List.forall_mem_cons]
  and_intros <;> first
    | exact fun v _ => ⟨by decide, Or.inl (by decide)⟩
    | exact fun v hv => ⟨by decide, Or.inr (fits_of_text hv)⟩
    | exact fun v hv => ⟨by decide, Or.inr (fits_of_switch hv)⟩
    | exact fun v hv => ⟨by decide, Or.inr (fits_of_texts hv)⟩
    | exact fun v hv => ⟨by decide, Or.inr (fits_of_secret hv)⟩
    | exact fun v hv => ⟨by decide, Or.inr (fits_of_verbosity hv)⟩
    | simp

end Profile

/-- Where a key of a body ends up. -/
inductive Place where
  | field
  | generic
  | flag
  | refused
  deriving DecidableEq

/-- Whether a key with a value ended up in a place. -/
def Place.Holds (p : Profile) (found : List FoundIssue) (n : String) (v : Value) : Place → Prop
  | field => ∃ read, (n, read) ∈ p.decoded ∧ read v
  | generic =>
    (∃ g, p.generic.get? n = some (some g) ∧ readGeneric v = .ok g) ∨
    (p.generic.get? n = some none ∧ ∃ issue, readGeneric v = .error issue ∧ (n, issue) ∈ found)
  | flag => ∃ x, p.flags.get? n = some x ∧ FlagValue.ofValue v = .ok x
  | refused => ∃ why, FlagValue.ofValue v = .error why ∧ (n, .unusable why) ∈ found

/-- What becomes of the entries of a body that is read to a profile, with the issues found. -/
structure Account (body : Mapping) (p : Profile) (found : List FoundIssue) : Prop where
  /-- Every key is in exactly one place. -/
  once : ∀ key v, body.get? key = some v →
    ∃ n, key = .string n ∧ ∃! place : Place, place.Holds p found n v
  /-- No other key is a flag. -/
  flags : ∀ n x, p.flags.get? n = some x → n ∉ Profile.shape.fieldNames ∧
    CommandTable.builtin.contains n = false ∧
    ∃ v, body.get? (.string n) = some v ∧ FlagValue.ofValue v = .ok x
  /-- There is an entry for each generic command, and no other key is a generic section. -/
  generic : ∀ n, (p.generic.contains n = true ↔ CommandTable.builtin.isGeneric n = true) ∧
    ∀ g, p.generic.get? n = some (some g) →
      ∃ v, body.get? (.string n) = some v ∧ readGeneric v = .ok g
  /-- No other key has an issue. -/
  issues : ∀ n issue, (n, issue) ∈ found → ∃ v, body.get? (.string n) = some v ∧
    ((CommandTable.builtin.isGeneric n = true ∧ readGeneric v = .error issue) ∨
      ∃ why, FlagValue.ofValue v = .error why ∧ issue = .unusable why)
  /-- No key has two issues. -/
  distinct : (found.map (·.1)).Nodup

section Sections

/-- The flags of a section that a profile has. -/
def Profile.sectionFlags? (p : Profile) : String → Option (Table FlagValue)
  | "backup" => p.backup?.map (·.flags)
  | "retention" => p.retention?.map (·.flags)
  | "check" => p.check?.map (·.flags)
  | "prune" => p.prune?.map (·.flags)
  | "forget" => p.forget?.map (·.flags)
  | "copy" => p.copy?.map (·.flags)
  | "init" => p.init?.map (·.flags)
  | n => (p.generic? n).map (·.flags)

/-- The shape of a section. -/
def Shape.ofSection : String → Shape
  | "backup" => BackupSection.shape
  | "retention" => RetentionSection.shape
  | "check" | "prune" | "forget" => ScheduledSection.shape
  | "copy" => CopySection.shape
  | "init" => InitSection.shape
  | _ => GenericSection.shape

/-- The fields of a shape are those that a section or a profile is written with. -/
theorem Shape.fieldNames_eq_written (p : Profile) (b : BackupSection) (r : RetentionSection)
    (s : ScheduledSection) (c : CopySection) (i : InitSection) (g : GenericSection) :
    Profile.shape.fieldNames = p.fields.map (·.1) ∧
    BackupSection.shape.fieldNames = b.fields.map (·.1) ∧
    RetentionSection.shape.fieldNames = r.fields.map (·.1) ∧
    ScheduledSection.shape.fieldNames = (s.timing.fields ++ s.hooks.fields).map (·.1) ∧
    CopySection.shape.fieldNames = c.fields.map (·.1) ∧
    InitSection.shape.fieldNames = i.fields.map (·.1) ∧
    GenericSection.shape.fieldNames = g.fields.map (·.1) :=
  ⟨rfl, rfl, rfl, rfl, rfl, rfl, rfl⟩

theorem Entries.get?_of_read {α : Type} {es : Entries} {n : String} {r : Reader (Option α)} {a : α}
    (h : es.read n r none = some a) : ∃ v, es.get? n = some v ∧ r v = .ok (some a) := by
  rw [read] at h
  split at h
  · cases h
  · rename_i v hv
    split at h
    · rename_i b hb
      exact ⟨v, hv, by rw [hb, h]⟩
    · cases h

theorem Reader.of_optional {α : Type} {r : Reader α} {v : Value} {a : α}
    (h : optional r v = .ok (some a)) : r v = .ok a := by
  unfold optional at h
  split at h
  · cases h
  · rcases hr : r v with f | b
    · rw [hr] at h
      cases h
    · rw [hr] at h
      rw [Option.some.inj (Except.ok.inj h)]

theorem read_of_readGeneric {v : Value} {g : GenericSection} (h : readGeneric v = .ok g) :
    GenericSection.read v = .ok g := by
  cases v with
  | null =>
    rw [← Except.ok.inj h]
    rfl
  | mapping m =>
    rw [readGeneric] at h
    split at h
    · rename_i hg
      rw [hg, Except.ok.inj h]
    · cases h
  | _ => cases h

theorem accounts_of_readGeneric {v : Value} {g : GenericSection} (hp : v.Plain) (ht : v.Tidy)
    (h : readGeneric v = .ok g) : GenericSection.shape.Accounts (fun _ x => x) v g.flags := by
  obtain ⟨es, rfl, hflags⟩ := Shape.accounts_of_readOpen hp ht (read_of_readGeneric h)
  exact hflags

end Sections

section Decode

variable {body : Mapping} {q : Profile} {name n : String} {v : Value}

/-- What is read from a body, and which issues it has, look-up by look-up. -/
structure BodyReading (body : Mapping) (q : Profile) (found : List FoundIssue) : Prop where
  fields : ∀ n read v, (n, read) ∈ q.decoded → body.get? (.string n) = some v →
    Keeps .builtin n v → read v
  flags : ∀ n x, q.flags.get? n = some x ↔ n ∉ Profile.shape.fieldNames ∧
    ∃ v, body.get? (.string n) = some v ∧ Keeps .builtin n v ∧ FlagValue.ofValue v = .ok x
  generic : ∀ n, q.generic.get? n = if CommandTable.builtin.isGeneric n = true then
    some ((body.get? (.string n)).bind fun v => (readGeneric v).toOption) else none
  issues : ∀ n issue, (n, issue) ∈ found ↔ ∃ v, body.get? (.string n) = some v ∧
    ((CommandTable.builtin.isGeneric n = true ∧ readGeneric v = .error issue) ∨
      ∃ why, Refuses .builtin n v why ∧ issue = .unusable why)
  distinct : (found.map (·.1)).Nodup
  sections : ∀ n flags, q.sectionFlags? n = some flags →
    ∃ v, body.get? (.string n) = some v ∧ (Shape.ofSection n).Accounts (fun _ x => x) v flags

theorem accounts_of_field {σ : Type} {s : Shape} {build : Entries → σ} {a : σ}
    (hp : (Value.mapping body).Plain) (ht : (Value.mapping body).Tidy)
    (h : (Entries.ofMapping (keptEntries .builtin body)).read n
      (Reader.optional (s.readOpen build)) none = some a) :
    ∃ v es, body.get? (.string n) = some v ∧ a = build es ∧
      s.Accounts (fun _ x => x) v (s.flags es) := by
  obtain ⟨v, hv, hr⟩ := Entries.get?_of_read h
  have hget := ((get?_keptEntries hp ht).1 hv).1
  obtain ⟨es, ha, hflags⟩ := Shape.accounts_of_readOpen (hp.get? hget) (ht.get? hget)
    (Reader.of_optional hr)
  exact ⟨v, es, hget, ha, hflags⟩

/-- The generic sections that are read from a body. -/
def genericSections (body : Mapping) : Table (Option GenericSection) :=
  Table.ofList (CommandTable.builtin.genericNames.map fun n =>
    (n, ((genericEntries .builtin body).get? n).bind fun v => (readGeneric v).toOption))

theorem get?_genericSections (hp : (Value.mapping body).Plain) (ht : (Value.mapping body).Tidy)
    (n : String) : (genericSections body).get? n =
      if CommandTable.builtin.isGeneric n = true then
        some ((body.get? (.string n)).bind fun v => (readGeneric v).toOption) else none := by
  rw [genericSections, Table.get?_ofList_map,
    get?_genericEntries hp ht]
  simp only [← CommandTable.isGeneric_builtin]
  split <;> rfl

/-- The issues of a body: refused entries, and generic sections that are not read. -/
def foundIssues (body : Mapping) : List FoundIssue :=
  refusedEntries .builtin body ++
    unreadEntries (genericEntries .builtin body) CommandTable.builtin.genericNames

theorem mem_foundIssues (hp : (Value.mapping body).Plain) (ht : (Value.mapping body).Tidy)
    {issue : SectionIssue} : (n, issue) ∈ foundIssues body ↔ ∃ v, body.get? (.string n) = some v ∧
      ((CommandTable.builtin.isGeneric n = true ∧ readGeneric v = .error issue) ∨
        ∃ why, Refuses .builtin n v why ∧ issue = .unusable why) := by
  rw [foundIssues, List.mem_append, mem_refusedEntries hp ht, mem_unreadEntries,
    ← CommandTable.isGeneric_builtin, get?_genericEntries hp ht]
  constructor
  · rintro (⟨v, why, hv, hw, rfl⟩ | ⟨hg, v, hv, hr⟩)
    · exact ⟨v, hv, Or.inr ⟨why, hw, rfl⟩⟩
    · rw [if_pos hg] at hv
      exact ⟨v, hv, Or.inl ⟨hg, hr⟩⟩
  · rintro ⟨v, hv, ⟨hg, hr⟩ | ⟨why, hw, rfl⟩⟩
    · exact Or.inr ⟨hg, v, by rw [if_pos hg, hv], hr⟩
    · exact Or.inl ⟨v, why, hv, hw, rfl⟩

theorem nodup_foundIssues (hp : (Value.mapping body).Plain) (ht : (Value.mapping body).Tidy) :
    ((foundIssues body).map (·.1)).Nodup := by
  rw [foundIssues, List.map_append, List.nodup_append]
  refine ⟨nodup_refusedEntries hp ht .builtin,
    nodup_unreadEntries CommandTable.nodup_genericNames_builtin, fun a ha b hb hab => ?_⟩
  -- a generic section is never refused
  obtain ⟨⟨n, issue⟩, hr, rfl⟩ := List.mem_map.1 ha
  obtain ⟨⟨m, other⟩, hu, rfl⟩ := List.mem_map.1 hb
  obtain ⟨v, why, -, hw, -⟩ := (mem_refusedEntries hp ht).1 hr
  have hg := CommandTable.isGeneric_builtin.2 (mem_unreadEntries.1 hu).1
  simp only at hab
  rw [← hab, hw.1] at hg
  cases hg

/-- A profile as it is read from a body, once no field has a fault. -/
def profileOf (name : String) (body : Mapping) : Profile :=
  { Profile.ofEntries (Entries.ofMapping (keptEntries .builtin body)) with
    name := name
    generic := genericSections body }

theorem accounts_of_sectionFlags? (hp : (Value.mapping body).Plain)
    (ht : (Value.mapping body).Tidy) {flags : Table FlagValue}
    (h : (profileOf name body).sectionFlags? n = some flags) :
    ∃ v, body.get? (.string n) = some v ∧ (Shape.ofSection n).Accounts (fun _ x => x) v flags := by
  unfold Profile.sectionFlags? at h
  unfold Shape.ofSection
  split at h <;> obtain ⟨a, ha, rfl⟩ := Option.map_eq_some_iff.1 h
  case h_8 =>
    have hread : (genericSections body).get? n = some (some a) := Option.join_eq_some_iff.1 ha
    rw [get?_genericSections hp ht] at hread
    split at hread
    · obtain ⟨v, hv, hr⟩ := Option.bind_eq_some_iff.1 (Option.some.inj hread)
      exact ⟨v, hv, accounts_of_readGeneric (hp.get? hv) (ht.get? hv) (toOption_eq_some.1 hr)⟩
    · cases hread
  all_goals
    obtain ⟨v, es, hv, rfl, hflags⟩ := accounts_of_field hp ht ha
    exact ⟨v, hv, hflags⟩

section Kept

variable {es : Entries}

/-- What a profile is read from: the entries that are kept, and the generic ones. -/
theorem entries_of_decode (hn : body.keys.Nodup) (h : (decode .builtin name body).result = .ok q) :
    ∃ es : Entries, keptEntries .builtin body = es.toMapping ∧
      (∀ e ∈ es, Profile.shape.Accepts e.1 e.2) ∧
      q = { Profile.ofEntries es with name := name, generic := genericSections body } ∧
      (decode .builtin name body).issues = foundIssues body := by
  obtain ⟨p, hbody, hq, hissues⟩ := decode_of_ok CommandTable.nodup_genericNames_builtin h
  obtain ⟨es, hes, rfl, ha⟩ := entries_of_readBody hn hbody
  exact ⟨es, hes, ha, hq, hissues⟩

/-- The fields of a profile are read from the entries that are kept. -/
theorem read_of_entries (hn : body.keys.Nodup) (hes : keptEntries .builtin body = es.toMapping)
    (ha : ∀ e ∈ es, Profile.shape.Accepts e.1 e.2) {read : Value → Prop}
    (hread : (n, read) ∈ (Profile.ofEntries es).decoded) (hv : body.get? (.string n) = some v)
    (hk : Keeps .builtin n v) : read v := by
  have hnodup := Entries.nodup_of_toMapping (hes ▸ nodup_keptEntries hn .builtin)
  refine Profile.decoded_ofEntries (fun m w check hw hc => ?_) (n, read) hread v
    ((get?_of_keptEntries hn hes).2 ⟨hv, hk⟩)
  exact (ha _ ((Entries.mem_iff_get? hnodup).2 hw)).passes _ List.mem_cons_self check hc

/-- The flags of a profile are the entries that are kept and no fields. -/
theorem get?_flags_of_entries (hn : body.keys.Nodup)
    (hes : keptEntries .builtin body = es.toMapping) {x : FlagValue} :
    (Profile.ofEntries es).flags.get? n = some x ↔ n ∉ Profile.shape.fieldNames ∧
      ∃ v, body.get? (.string n) = some v ∧ Keeps .builtin n v ∧ FlagValue.ofValue v = .ok x := by
  have hnodup := Entries.nodup_of_toMapping (hes ▸ nodup_keptEntries hn .builtin)
  show (Profile.shape.flags es).get? n = some x ↔ _
  rw [Shape.get?_flags hnodup]
  by_cases hf : n ∈ Profile.shape.fieldNames
  · simp [hf]
  · rw [if_neg hf, Option.bind_eq_some_iff]
    simp only [get?_of_keptEntries hn hes, hf, not_false_eq_true, true_and,
      FlagValue.ofValue?_eq_some, and_assoc]

end Kept

theorem reading_of_decode (hp : (Value.mapping body).Plain) (ht : (Value.mapping body).Tidy)
    (h : (decode .builtin name body).result = .ok q) :
    BodyReading body q (decode .builtin name body).issues := by
  obtain ⟨es, hes, ha, hq, hissues⟩ := entries_of_decode ht.nodup h
  have hprofile : q = profileOf name body := by
    rw [hq, profileOf, hes, Entries.toMapping, Entries.ofMapping_map_string]
  refine ⟨fun n read v hread hv hk => ?_, fun n x => ?_, ?_, fun n issue => ?_, ?_,
    fun n flags => ?_⟩
  · rw [hq] at hread
    exact read_of_entries ht.nodup hes ha hread hv hk
  · rw [hq]
    exact get?_flags_of_entries ht.nodup hes
  · rw [hprofile]
    exact get?_genericSections hp ht
  · rw [hissues]
    exact mem_foundIssues hp ht
  · rw [hissues]
    exact nodup_foundIssues hp ht
  · rw [hprofile]
    exact accounts_of_sectionFlags? hp ht

namespace BodyReading

variable {found : List FoundIssue}

section Holds

variable (h : BodyReading body q found) (hv : body.get? (.string n) = some v)
include h hv

theorem holds_field :
    Place.field.Holds q found n v ↔ n ∈ Profile.shape.fieldNames ∧ Keeps .builtin n v := by
  rw [← q.names_decoded, List.mem_map]
  constructor
  · rintro ⟨read, hread, hr⟩
    exact ⟨⟨_, hread, rfl⟩, q.keeps_of_decoded _ hread v hr⟩
  · rintro ⟨⟨⟨m, read⟩, hread, rfl⟩, hk⟩
    exact ⟨read, hread, h.fields m read v hread hv hk⟩

theorem holds_generic :
    Place.generic.Holds q found n v ↔ CommandTable.builtin.isGeneric n = true := by
  rw [Place.Holds, h.generic, hv]
  constructor
  · rintro (⟨g, hg, -⟩ | ⟨hg, -⟩) <;> split at hg
    · assumption
    · cases hg
    · assumption
    · cases hg
  · intro hg
    rw [if_pos hg, Option.bind_some]
    rcases hr : readGeneric v with issue | g
    · exact Or.inr ⟨rfl, issue, rfl, (h.issues n issue).2 ⟨v, hv, Or.inl ⟨hg, hr⟩⟩⟩
    · exact Or.inl ⟨g, rfl, rfl⟩

theorem holds_flag :
    Place.flag.Holds q found n v ↔ n ∉ Profile.shape.fieldNames ∧ Keeps .builtin n v := by
  rw [Place.Holds]
  simp only [h.flags, hv]
  constructor
  · rintro ⟨x, ⟨hf, w, hw, hk, -⟩, -⟩
    exact ⟨hf, by rwa [Option.some.inj hw]⟩
  · rintro ⟨hf, hk⟩
    rcases hk.2 with (hc | he) | ⟨x, hx⟩
    · exact absurd (CommandTable.mem_fieldNames_of_contains hc hk.1) hf
    · exact absurd (he ▸ by decide) hf
    · exact ⟨x, ⟨hf, v, rfl, hk, hx⟩, hx⟩

theorem holds_refused :
    Place.refused.Holds q found n v ↔ ∃ why, Refuses .builtin n v why := by
  rw [Place.Holds]
  simp only [h.issues, hv]
  constructor
  · rintro ⟨why, hwhy, w, hw, ⟨-, hr⟩ | ⟨other, hr, -⟩⟩
    · exact absurd hr (readGeneric_ne_unusable w why)
    · exact ⟨other, by rwa [Option.some.inj hw]⟩
  · rintro ⟨why, hw⟩
    exact ⟨why, hw.2.2.2, v, rfl, Or.inr ⟨why, hw, rfl⟩⟩

/-- A key with a value is in exactly one place. -/
theorem existsUnique_holds : ∃! place : Place, place.Holds q found n v := by
  have hfield := h.holds_field hv
  have hgeneric := h.holds_generic hv
  have hflag := h.holds_flag hv
  have hrefused := h.holds_refused hv
  -- an entry is generic, kept or refused; a kept one is a field or a flag by its name
  rcases EntryRole.cases .builtin n v with hg | hk | ⟨why, hw⟩
  · refine ⟨.generic, hgeneric.2 hg, fun place hp => ?_⟩
    cases place with
    | field => exact absurd (hfield.1 hp).1 (CommandTable.notMem_fieldNames_of_isGeneric hg)
    | generic => rfl
    | flag => exact absurd ((hflag.1 hp).2.1.symm.trans hg) (by decide)
    | refused =>
      obtain ⟨why, hw⟩ := hrefused.1 hp
      exact absurd (hw.1.symm.trans hg) (by decide)
  · have hng : CommandTable.builtin.isGeneric n ≠ true := by simp [hk.1]
    have hnr := fun hp => (hrefused.1 hp).elim fun why hw => hk.not_refuses hw
    by_cases hf : n ∈ Profile.shape.fieldNames
    · refine ⟨.field, hfield.2 ⟨hf, hk⟩, fun place hp => ?_⟩
      cases place with
      | field => rfl
      | generic => exact absurd (hgeneric.1 hp) hng
      | flag => exact absurd hf (hflag.1 hp).1
      | refused => exact absurd hp hnr
    · refine ⟨.flag, hflag.2 ⟨hf, hk⟩, fun place hp => ?_⟩
      cases place with
      | field => exact absurd (hfield.1 hp).1 hf
      | generic => exact absurd (hgeneric.1 hp) hng
      | flag => rfl
      | refused => exact absurd hp hnr
  · refine ⟨.refused, hrefused.2 ⟨why, hw⟩, fun place hp => ?_⟩
    cases place with
    | field => exact absurd hw (hfield.1 hp).2.not_refuses
    | generic => exact absurd (hgeneric.1 hp) (by simp [hw.1])
    | flag => exact absurd hw (hflag.1 hp).2.not_refuses
    | refused => rfl

end Holds

theorem account (hp : (Value.mapping body).Plain) (h : BodyReading body q found) :
    Account body q found where
  once key v hv := by
    obtain ⟨k, hk, hmem⟩ := Mapping.exists_of_get? hv
    obtain ⟨n, hn⟩ := hp.key_eq hmem
    obtain rfl : key = .string n := Value.string_sameKey.1 (hn ▸ hk)
    exact ⟨n, rfl, h.existsUnique_holds hv⟩
  flags n x hx := by
    obtain ⟨hf, v, hv, hk, hx⟩ := (h.flags n x).1 hx
    refine ⟨hf, ?_, v, hv, hx⟩
    rw [← Bool.not_eq_true]
    exact fun hc => hf (CommandTable.mem_fieldNames_of_contains hc hk.1)
  generic n := by
    rw [Table.contains, h.generic]
    refine ⟨?_, fun g hg => ?_⟩
    · split <;> simp [*]
    · split at hg
      · obtain ⟨v, hv, hr⟩ := Option.bind_eq_some_iff.1 (Option.some.inj hg)
        exact ⟨v, hv, toOption_eq_some.1 hr⟩
      · cases hg
  issues n issue hi := by
    obtain ⟨v, hv, hwhy⟩ := (h.issues n issue).1 hi
    exact ⟨v, hv, hwhy.imp_right fun ⟨why, hw, hissue⟩ => ⟨why, hw.2.2.2, hissue⟩⟩
  distinct := h.distinct

end BodyReading

end Decode

section Anchored

/-- How a flag is rewritten when files are anchored. -/
def anchorFlag (f : Anchoring) (name : String) (x : FlagValue) : FlagValue :=
  if fileFlags.contains name then x.mapText f else x

theorem anchorFlags_eq (f : Anchoring) (flags : Table FlagValue) :
    anchorFlags f flags = flags.mapEntries (anchorFlag f) := rfl

/-- File flags are fields of a profile, so they are not among its other flags. -/
theorem anchorFlags_eq_self {f : Anchoring} {flags : Table FlagValue}
    (h : ∀ n x, flags.get? n = some x → n ∉ Profile.shape.fieldNames) :
    anchorFlags f flags = flags := by
  rw [anchorFlags_eq]
  refine Table.mapEntries_eq_self fun n x hx => if_neg fun hf => h n x hx ?_
  simp only [fileFlags, List.contains_cons, List.contains_nil, Bool.or_false, Bool.or_eq_true,
    beq_iff_eq] at hf
  rcases hf with rfl | rfl <;> decide

theorem sectionFlags?_anchored (f : Anchoring) (find : String → List String) (q : Profile)
    (n : String) : ((q.anchorWith f).expandSources find).sectionFlags? n =
      (q.sectionFlags? n).map (anchorFlags f) := by
  unfold Profile.sectionFlags?
  split
  · show ((q.backup?.map (·.anchor f)).map (·.expand find)).map (·.flags) = _
    rcases q.backup? with _ | b <;> rfl
  · show (q.retention?.map (·.anchor f)).map (·.flags) = _
    rcases q.retention? with _ | r <;> rfl
  · show (q.check?.map (·.anchor f)).map (·.flags) = _
    rcases q.check? with _ | c <;> rfl
  · show (q.prune?.map (·.anchor f)).map (·.flags) = _
    rcases q.prune? with _ | c <;> rfl
  · show (q.forget?.map (·.anchor f)).map (·.flags) = _
    rcases q.forget? with _ | c <;> rfl
  · show (q.copy?.map (·.anchor f)).map (·.flags) = _
    rcases q.copy? with _ | c <;> rfl
  · show (q.init?.map (·.anchor f)).map (·.flags) = _
    rcases q.init? with _ | i <;> rfl
  · show (((q.generic.map fun g? => g?.map (·.anchor f)).get? n).join.map (·.flags)) = _
    rw [Table.get?_map, Profile.generic?]
    rcases q.generic.get? n with _ | _ | g <;> rfl

end Anchored

namespace Config

/-- Every key of a profile in a document without tags is accounted for: it is read as a field, read
as a generic section or recorded as one that cannot be read, kept as a flag, or recorded as one that
cannot stand in a flag. Nothing else is kept or recorded, in its sections neither. -/
theorem account_of_resolve {format : Format} {text file name : String} {d : Document}
    {s : Surroundings} {p : Profile} (hf : format.IsPlain) (hd : Document.parse format text = .ok d)
    (hp : ((ofDocument d file).resolve s name).result = .ok p) :
    ∃ body q, mergedBody (ofDocument d file).profiles name = .ok body ∧
      p = (q.anchor s.home? (ofDocument d file).rootFolder).expandSources (Glob.expand s) ∧
      Account body q ((ofDocument d file).resolve s name).issues ∧
      p.flags = q.flags ∧
      (∀ n, p.generic.get? n = (q.generic.get? n).map (Option.map
        (GenericSection.anchor (Path.anchored s.home? (ofDocument d file).rootFolder)))) ∧
      (∀ n flags, p.sectionFlags? n = some flags → ∃ v, body.get? (.string n) = some v ∧
        (Shape.ofSection n).Accounts
          (anchorFlag (Path.anchored s.home? (ofDocument d file).rootFolder)) v flags) ∧
      ∀ (log : Issues) n,
        (log.failAll ((ofDocument d file).resolve s name).issues).failed.get? n =
          (entryFor? ((ofDocument d file).resolve s name).issues n).or (log.failed.get? n) := by
  rw [resolve] at hp ⊢
  rcases hbody : mergedBody (ofDocument d file).profiles name with e | body
  · rw [hbody] at hp
    cases hp
  rw [hbody] at hp
  dsimp only at hp ⊢
  rcases hq : (decode (ofDocument d file).table name body).result with f | q
  · rw [hq] at hp
    cases hp
  rw [hq] at hp
  dsimp only at hp ⊢
  have hplain := plain_mergedBody (Document.plain_of_parse hf hd) hbody
  have htidy := tidy_mergedBody hbody
  have hreading := reading_of_decode hplain htidy hq
  have haccount := hreading.account hplain
  have hpq := (Except.ok.inj hp).symm
  refine ⟨body, q, rfl, hpq, haccount, ?_, fun n => ?_, fun n flags hn => ?_, fun log n => ?_⟩
  · rw [hpq]
    exact anchorFlags_eq_self fun n x hx => (haccount.flags n x hx).1
  · rw [hpq]
    exact Table.get?_map _ q.generic n
  · rw [hpq, Profile.anchor, sectionFlags?_anchored] at hn
    obtain ⟨flags', hflags, rfl⟩ := Option.map_eq_some_iff.1 hn
    obtain ⟨v, hv, hacc⟩ := hreading.sections n flags' hflags
    exact ⟨v, hv, hacc.mapEntries _⟩
  · exact Issues.get?_failAll haccount.distinct log n

def mixedText : String :=
  "[a]\nquiet = true\nlimit = 5\nodd = [[]]\n[a.tag]\nlast = 'x'\n[a.backup]\ncacert = 'y'\n"

def mixedBody : Mapping := [
  (.string "quiet", .bool true),
  (.string "limit", .number (.int 5)),
  (.string "odd", .list [.list []]),
  (.string "tag", .mapping [(.string "last", .string "x")]),
  (.string "backup", .mapping [(.string "cacert", .string "y")])]

/-- A document whose profile has a field, a flag, a value that cannot be a flag, and two
sections. -/
def mixed : Document := ⟨[(.string "a", .mapping mixedBody)]⟩

theorem parse_mixed : Document.parse .toml mixedText = .ok mixed :=
  toOption_eq_some.1 (by decide +kernel)

theorem mergedBody_mixed : mergedBody (ofDocument mixed "").profiles "a" = .ok mixedBody := by
  have hroot : (ofDocument mixed "").profiles = mixed.root := by decide
  rw [hroot, mergedBody, ancestry, ancestryFrom_last (by decide) rfl rfl (by decide)]
  exact toOption_eq_some.1 (by decide +kernel)

theorem account_of_resolve_mixed : Document.parse .toml mixedText = .ok mixed ∧
    ∃ p body q, ((ofDocument mixed "").resolve default "a").result = .ok p ∧
      Account body q ((ofDocument mixed "").resolve default "a").issues ∧ p.flags = q.flags ∧
      ((ofDocument mixed "").resolve default "a").issues =
        [("odd", .unusable (.nestedItem .list))] := by
  have hresolve : ∃ p, ((ofDocument mixed "").resolve default "a").result = .ok p := by
    rw [resolve, mergedBody_mixed]
    exact ⟨_, rfl⟩
  obtain ⟨p, hp⟩ := hresolve
  obtain ⟨body, q, -, -, haccount, hflags, -⟩ := account_of_resolve (Or.inr rfl) parse_mixed hp
  refine ⟨parse_mixed, p, body, q, hp, haccount, hflags, ?_⟩
  rw [resolve, mergedBody_mixed]
  rfl

end Config

end BackupProfiles
