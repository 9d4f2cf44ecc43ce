import BackupProfiles.Proofs.Profile.Decode
import BackupProfiles.Proofs.Spelling.Reading

/-!
# Reading a body that is spelled

The settings of a profile are spelled like the fields of its sections, and every section by its own
fields. A body is read to the same profile with the same issues, whichever way it is spelled
(`decode_spelled`).
-/

namespace BackupProfiles

variable {name : String}

namespace Profile

/-- The settings of a profile that take one text or a list of texts. -/
def textsFields : List String := ["run-before", "run-after", "run-after-fail", "run-finally"]

/-- Such fields of the sections with a shape of their own. -/
def sectionTextsFields : String → List String
  | "backup" => BackupSection.textsFields
  | "retention" | "check" | "prune" | "forget" | "copy" => Timing.textsFields
  | _ => []

end Profile

namespace Spelling

/-- The spelling of a setting; a section is one, too. -/
def ofSetting (name : String) : Spelling :=
  if name ∈ Profile.textsFields then texts
  else nested (ofFields (Profile.sectionTextsFields name))

/-- The spelling of what stands in the body of a profile. -/
def ofBody (table : CommandTable) (name : String) : Spelling :=
  if table.isGeneric name then nested (ofFields GenericSection.textsFields) else ofSetting name

theorem ofSetting_of_mem (h : name ∈ Profile.textsFields) : ofSetting name = texts := if_pos h

theorem ofSetting_of_notMem (h : name ∉ Profile.textsFields) :
    ofSetting name = nested (ofFields (Profile.sectionTextsFields name)) := if_neg h

/-- A value without such fields has one spelling. -/
theorem spelledSection_ofFields_nil (v : Value) : v.spelledSection (ofFields []) = v := by
  have hplain : ∀ key, Spelling.at (ofFields []) key = .plain := by
    intro key
    unfold Spelling.at
    split <;> rfl
  have hspelled : Mapping.spelled (ofFields []) = fun m => m := by
    funext m
    simp only [Mapping.spelled, hplain]
    exact List.map_id m
  cases v with
  | list items =>
    rw [Value.spelledSection, hspelled, funext Value.reviseMapping_id, List.map_id']
  | _ =>
    rw [Value.spelledSection, hspelled, Value.reviseMapping_id]
    simp

end Spelling

section Settings

/-- The reader of a setting does not see how the setting is spelled. -/
def ReadsSpelled {α : Type} (name : String) (r : Reader α) : Prop :=
  ∀ v, r ((Spelling.ofSetting name).merged v) = r v

namespace ReadsSpelled

variable {α : Type} {r : Reader α}

theorem fault?_eq (h : ReadsSpelled name r) (v : Value) :
    r.fault? ((Spelling.ofSetting name).merged v) = r.fault? v := by
  rw [Reader.fault?, Reader.fault?, h]

theorem texts (h : name ∈ Profile.textsFields) : ReadsSpelled name Reader.texts := fun v => by
  rw [Spelling.ofSetting_of_mem h]
  exact Reader.texts_spread v

theorem sectionOf {fields : List String} (h : name ∉ Profile.textsFields)
    (hf : Profile.sectionTextsFields name = fields)
    (hr : ∀ v : Value, r (v.spelledSection (Spelling.ofFields fields)) = r v) :
    ReadsSpelled name (Reader.optional r) := fun v => by
  rw [Spelling.ofSetting_of_notMem h, hf]
  exact Reader.optional_spelledSection hr v

theorem other (h : name ∉ Profile.textsFields) (hn : Profile.sectionTextsFields name = [])
    (r : Reader α) : ReadsSpelled name r := fun v => by
  rw [Spelling.ofSetting_of_notMem h, hn]
  exact congrArg r (Spelling.spelledSection_ofFields_nil v)

theorem backup : ReadsSpelled "backup" (Reader.optional BackupSection.read) :=
  sectionOf (by decide) rfl BackupSection.read_spelled

theorem retention : ReadsSpelled "retention" (Reader.optional RetentionSection.read) :=
  sectionOf (by decide) rfl RetentionSection.read_spelled

theorem copy : ReadsSpelled "copy" (Reader.optional CopySection.read) :=
  sectionOf (by decide) rfl CopySection.read_spelled

theorem scheduled (h : name ∈ ["check", "prune", "forget"]) :
    ReadsSpelled name (Reader.optional ScheduledSection.read) := by
  have hnames : ∀ name ∈ ["check", "prune", "forget"], name ∉ Profile.textsFields ∧
      Profile.sectionTextsFields name = Timing.textsFields := by decide
  exact sectionOf (hnames name h).1 (hnames name h).2 ScheduledSection.read_spelled

end ReadsSpelled

theorem Entries.read_ofSetting {α : Type} {r : Reader α} (h : ReadsSpelled name r) (es : Entries)
    (default : α) : (es.rewrite fun name => (Spelling.ofSetting name).merged).read name r default =
      es.read name r default :=
  read_rewrite (f := fun name => (Spelling.ofSetting name).merged) h es default

theorem hasTag_ofSetting (name : String) (v : Value) :
    ((Spelling.ofSetting name).merged v).hasTag = v.hasTag := by
  unfold Spelling.ofSetting
  split
  · exact v.hasTag_spread
  · exact Value.hasTag_spelledSection (hasTag_ofFields _) v

theorem Profile.spares_ofSetting : shape.Spares fun name => (Spelling.ofSetting name).merged where
  checks := by
    refine List.forall_mem_cons.2 ⟨?_, by simp [shape]⟩
    simp only [shape, List.forall_mem_cons]
    -- a setting is a list of texts, a section, or spelled in one way only
    and_intros <;> first
      | exact (ReadsSpelled.other (by decide) (by decide) _).fault?_eq
      | exact (ReadsSpelled.texts (by decide)).fault?_eq
      | exact ReadsSpelled.backup.fault?_eq
      | exact ReadsSpelled.retention.fault?_eq
      | exact (ReadsSpelled.scheduled (by decide)).fault?_eq
      | exact ReadsSpelled.copy.fault?_eq
      | simp
  flags name hname v := by
    show FlagValue.ofValue ((Spelling.ofSetting name).merged v) = _
    have hn : name ∉ textsFields :=
      fun h => hname ((by decide : textsFields ⊆ shape.fieldNames) h)
    rw [Spelling.ofSetting_of_notMem hn]
    exact FlagValue.ofValue_spelledSection _ v
  tags := hasTag_ofSetting

theorem Profile.readBody_spelled (m : Mapping) :
    readBody (.mapping (Mapping.spelled Spelling.ofSetting m)) = readBody (.mapping m) := by
  refine Shape.readOpen_mapValues (Mapping.goesByTexts_merged _) spares_ofSetting (fun es => ?_) m
  have htexts : ∀ name ∈ textsFields, ∀ default : List String,
      (es.rewrite fun name => (Spelling.ofSetting name).merged).read name Reader.texts default =
        es.read name Reader.texts default :=
    fun name hn default => Entries.read_ofSetting (.texts hn) es default
  have hother : ∀ {α : Type} (name : String) (r : Reader α) (default : α),
      name ∉ textsFields → sectionTextsFields name = [] →
      (es.rewrite fun name => (Spelling.ofSetting name).merged).read name r default =
        es.read name r default :=
    fun name r default hn hs => Entries.read_ofSetting (.other hn hs r) es default
  simp (disch := decide) only [ofEntries, htexts, hother, Entries.read_ofSetting .backup,
    Entries.read_ofSetting .retention, Entries.read_ofSetting (.scheduled _),
    Entries.read_ofSetting .copy, Shape.flags_rewrite spares_ofSetting.flags]

end Settings

section Decode

variable {table : CommandTable}

theorem Spelling.ofBody_of_generic (h : table.isGeneric name = true) :
    ofBody table name = nested (ofFields GenericSection.textsFields) := if_pos h

theorem Spelling.ofBody_of_not_generic (h : table.isGeneric name = false) :
    ofBody table name = ofSetting name := by
  rw [ofBody, h]
  rfl

/-- Whether and why a value is refused as a flag does not depend on how it is spelled. -/
theorem FlagValue.ofValue_ofBody_map_unit (table : CommandTable) (name : String) (v : Value) :
    (ofValue ((Spelling.ofBody table name).merged v)).map (fun _ => ()) =
      (ofValue v).map fun _ => () := by
  have hsection : ∀ spelling : String → Spelling,
      ofValue ((Spelling.nested spelling).merged v) = ofValue v :=
    fun spelling => ofValue_spelledSection spelling v
  unfold Spelling.ofBody Spelling.ofSetting
  split
  · rw [hsection]
  · split
    · cases v <;> rfl
    · rw [hsection]

theorem keepsRoles_ofBody (table : CommandTable) :
    KeepsRoles table fun key => (Spelling.at (Spelling.ofBody table) key).merged := fun key v => by
  refine EntryRole.of_congr ?_ table key
  dsimp only
  unfold Spelling.at
  split
  · exact FlagValue.ofValue_ofBody_map_unit table _ v
  · rfl

/-- What is kept is spelled like a setting. -/
theorem at_ofBody_of_mem_keptEntries {body : Mapping} {e : Value × Value}
    (he : e ∈ keptEntries table body) :
    Spelling.at (Spelling.ofBody table) e.1 = Spelling.at Spelling.ofSetting e.1 := by
  have hrole : EntryRole.of table e.1 e.2 = .kept := by simpa using (List.mem_filter.1 he).2
  rcases hk : e.1.keyText with _ | name
  · simp [EntryRole.of, hk] at hrole
  · rw [EntryRole.of_keyText hk] at hrole
    cases hkey : e.1 with
    | string s =>
      rw [hkey] at hk
      obtain rfl := Option.some.inj hk
      rw [Spelling.at_string, Spelling.at_string,
        Spelling.ofBody_of_not_generic (EntryRole.of_eq_kept.1 hrole).1]
    | number n => rfl
    | bool b => rfl
    | _ =>
      rw [hkey] at hk
      cases hk

theorem keptEntries_spelled (table : CommandTable) (body : Mapping) :
    keptEntries table (Mapping.spelled (Spelling.ofBody table) body) =
      Mapping.spelled Spelling.ofSetting (keptEntries table body) := by
  refine (keptEntries_mapValues (keepsRoles_ofBody table) body).trans ?_
  unfold Mapping.spelled
  refine Mapping.mapValues_congr fun e he => ?_
  rw [at_ofBody_of_mem_keptEntries he]

theorem readGeneric_spelled (v : Value) :
    readGeneric (v.spelledSection (Spelling.ofFields GenericSection.textsFields)) =
      readGeneric v := by
  cases v with
  | mapping m =>
    have hread := GenericSection.read_spelled (.mapping m)
    rw [Value.spelledSection, Value.reviseMapping] at hread ⊢
    · rw [readGeneric, readGeneric, hread]
    all_goals simp
  | _ => rfl

/-- Generic sections are read to the same, whichever way they are spelled. -/
theorem genericEntries_spelled (table : CommandTable) (body : Mapping) :
    (genericEntries table (Mapping.spelled (Spelling.ofBody table) body)).map readGeneric =
      (genericEntries table body).map readGeneric := by
  refine genericEntries_mapValues (keepsRoles_ofBody table) (fun key v n hk hg => ?_) body
  cases key with
  | string s =>
    obtain rfl := Option.some.inj hk
    rw [Spelling.at_string, Spelling.ofBody_of_generic hg]
    exact readGeneric_spelled v
  | number n => rfl
  | bool b => rfl
  | _ => cases hk

/-- Sections that are read alike are read alike under any names. -/
theorem readGenerics_congr {values others : Table Value}
    (h : values.map readGeneric = others.map readGeneric) (used names : List String) :
    readGenerics values used names = readGenerics others used names := by
  induction names generalizing used with
  | nil => rfl
  | cons name rest ih =>
    rw [readGenerics, readGenerics, ih, ← Table.get?_map, ← Table.get?_map, h]

/-- A body is read to the same, whichever way it is spelled. -/
theorem decode_spelled (table : CommandTable) (name : String) (body : Mapping) :
    decode table name (Mapping.spelled (Spelling.ofBody table) body) = decode table name body := by
  have hrefused : refusedEntries table (Mapping.spelled (Spelling.ofBody table) body) =
      refusedEntries table body := refusedEntries_mapValues (keepsRoles_ofBody table) body
  unfold decode
  rw [hrefused, keptEntries_spelled, Profile.readBody_spelled,
    readGenerics_congr (genericEntries_spelled table body)]

end Decode

end BackupProfiles
