import BackupProfiles.Profile.Basic
import BackupProfiles.Proofs.Reading.Rewritten
import BackupProfiles.Proofs.Spelling.Merge

/-!
# One text or a list of texts

Some fields take a list of texts, or a single text for the list of it. `Spelling.texts` spells both
as the list. The readers of the sections do not see how such fields are spelled, and neither do
flags see how the fields of a section are.
-/

namespace BackupProfiles

variable {fields : List String} {name : String}

namespace Value

/-- One text as the list of it. -/
def spread : Value → Value
  | string s => list [string s]
  | v => v

theorem spread_spread (v : Value) : v.spread.spread = v.spread := by cases v <;> rfl

theorem hasTag_spread (v : Value) : v.spread.hasTag = v.hasTag := by
  cases v <;> simp [spread, hasTag, anyHasTag]

theorem items_spread (v : Value) : v.spread.items = v.items := by cases v <;> rfl

theorem mappingEntries_spread (v : Value) : v.spread.mappingEntries = v.mappingEntries := by
  cases v <;> rfl

end Value

namespace Spelling

/-- The list of texts for one text. -/
def texts : Spelling where
  merged := Value.spread
  written := Value.spread
  item v := v
  items_merged v := by rw [List.map_id', v.items_spread]
  merged_list items := by rw [List.map_id']; rfl
  overlayValue_written old? v := by
    cases v with
    | mapping body =>
      have hentries := entries_map (g := fun m => m) rfl Value.mappingEntries_spread old?
      show Mapping.overlayValue _ (.mapping body) = _
      rw [Mapping.overlayValue_mapping, hentries, Mapping.overlayValue_mapping]
      rfl
    | _ => simp [Mapping.overlayValue, Value.spread]

/-- The spelling of a section with some fields that take one text or a list of texts. -/
def ofFields (fields : List String) (name : String) : Spelling :=
  if name ∈ fields then texts else plain

theorem ofFields_of_mem (h : name ∈ fields) : ofFields fields name = texts := if_pos h

theorem ofFields_of_notMem (h : name ∉ fields) : ofFields fields name = plain := if_neg h

end Spelling

theorem Reader.texts_spread (v : Value) : texts v.spread = texts v := by cases v <;> rfl

section Sections

variable {spelling : String → Spelling}

namespace FlagValue

theorem ofItem_reviseMapping (revise : Mapping → Mapping) : ∀ v : Value,
    ofItem (v.reviseMapping revise) = ofItem v
  | .tagged _ v => by rw [Value.reviseMapping, ofItem, ofItem, ofItem_reviseMapping revise v]
  | .mapping _ => by rw [Value.reviseMapping, ofItem, ofItem]
  | .null | .bool _ | .number _ | .string _ | .list _ => rfl

theorem ofValue_reviseMapping (revise : Mapping → Mapping) : ∀ v : Value,
    ofValue (v.reviseMapping revise) = ofValue v
  | .tagged _ v => by rw [Value.reviseMapping, ofValue, ofValue, ofValue_reviseMapping revise v]
  | .mapping _ => by rw [Value.reviseMapping, ofValue, ofValue]
  | .null | .bool _ | .number _ | .string _ | .list _ => rfl

/-- No map can stand in a flag, however it is spelled. -/
theorem ofValue_spelledSection (spelling : String → Spelling) (v : Value) :
    ofValue (v.spelledSection spelling) = ofValue v := by
  cases v with
  | list items =>
    have hitems : ∀ items : List Value,
        (items.map (Value.reviseMapping (Mapping.spelled spelling))).mapM ofItem =
          items.mapM ofItem := by
      intro items
      induction items with
      | nil => rfl
      | cons v rest ih =>
        rw [List.map_cons, List.mapM_cons, List.mapM_cons, ih, ofItem_reviseMapping]
    rw [Value.spelledSection, ofValue, ofValue, hitems]
  | _ => exact ofValue_reviseMapping _ _

end FlagValue

namespace Value

theorem hasTag_reviseMapping {revise : Mapping → Mapping}
    (h : ∀ m, anyEntryHasTag (revise m) = anyEntryHasTag m) (v : Value) :
    (v.reviseMapping revise).hasTag = v.hasTag := by
  cases v with
  | mapping m => rw [reviseMapping, hasTag, hasTag, h]
  | tagged tag v => rw [reviseMapping, hasTag, hasTag]
  | _ => rfl

theorem hasTag_spelledSection (h : ∀ name v, ((spelling name).merged v).hasTag = v.hasTag)
    (v : Value) : (v.spelledSection spelling).hasTag = v.hasTag := by
  have hkey : ∀ key v, ((Spelling.at spelling key).merged v).hasTag = v.hasTag := by
    intro key v
    unfold Spelling.at
    split
    · exact h _ v
    · rfl
  have hentries (m : Mapping) :
      anyEntryHasTag (Mapping.spelled spelling m) = anyEntryHasTag m := by
    induction m with
    | nil => rfl
    | cons e rest ih =>
      show anyEntryHasTag
        ((e.1, (Spelling.at spelling e.1).merged e.2) :: Mapping.spelled spelling rest) =
          anyEntryHasTag ((e.1, e.2) :: rest)
      rw [anyEntryHasTag, anyEntryHasTag, ih, hkey]
  cases v with
  | list items =>
    have hitems : ∀ items : List Value,
        anyHasTag (items.map (reviseMapping (Mapping.spelled spelling))) = anyHasTag items := by
      intro items
      induction items with
      | nil => rfl
      | cons v rest ih =>
        rw [List.map_cons, anyHasTag, anyHasTag, ih, hasTag_reviseMapping hentries]
    rw [spelledSection, hasTag, hasTag, hitems]
  | _ => exact hasTag_reviseMapping hentries _

end Value

namespace Shape

variable {σ : Type} {s : Shape} {build : Entries → σ}

theorem readOpen_reviseMapping {revise : Mapping → Mapping}
    (h : ∀ m, s.readOpen build (.mapping (revise m)) = s.readOpen build (.mapping m)) :
    ∀ v : Value, s.readOpen build (v.reviseMapping revise) = s.readOpen build v
  | .tagged _ v => readOpen_reviseMapping h v
  | .mapping m => h m
  | .null | .bool _ | .number _ | .string _ | .list _ => rfl

/-- A section is read to the same if no field and no flag sees how it is spelled. -/
theorem readOpen_spelledSection (hs : s.Spares fun name => (spelling name).merged)
    (hb : ∀ es : Entries, build (es.rewrite fun name => (spelling name).merged) = build es)
    (v : Value) : s.readOpen build (v.spelledSection spelling) = s.readOpen build v := by
  cases v with
  | list items => rfl
  | _ =>
    have hread := readOpen_mapValues (Mapping.goesByTexts_merged spelling) hs hb
    exact readOpen_reviseMapping hread _

end Shape

theorem Reader.optional_spelledSection {α : Type} {r : Reader α}
    (h : ∀ v : Value, r (v.spelledSection spelling) = r v) (v : Value) :
    optional r (v.spelledSection spelling) = optional r v := by
  cases v with
  | null => rfl
  | _ => exact congrArg (Except.map some) (h _)

end Sections

section Fields

theorem hasTag_ofFields (fields : List String) (name : String) (v : Value) :
    ((Spelling.ofFields fields name).merged v).hasTag = v.hasTag := by
  unfold Spelling.ofFields
  split
  · exact v.hasTag_spread
  · rfl

namespace Shape

variable {σ : Type} {s : Shape} {build : Entries → σ}

theorem keepsFlags_ofFields (hf : fields ⊆ s.fieldNames) :
    s.KeepsFlags fun name => (Spelling.ofFields fields name).merged := fun name hn v => by
  dsimp only
  rw [Spelling.ofFields_of_notMem fun h => hn (hf h)]
  rfl

theorem flags_ofFields (hf : fields ⊆ s.fieldNames) (es : Entries) :
    s.flags (es.rewrite fun name => (Spelling.ofFields fields name).merged) = s.flags es :=
  flags_rewrite (keepsFlags_ofFields hf) es

/-- Fields that are read as one text or a list of texts can be spelled. -/
theorem readOpen_ofFields (hf : fields ⊆ s.fieldNames)
    (hs : ∀ group ∈ s.own :: s.groups, ∀ e ∈ group,
      e.1 ∈ fields → e.2 = Reader.fault? Reader.texts)
    (hb : ∀ es : Entries,
      build (es.rewrite fun name => (Spelling.ofFields fields name).merged) = build es)
    (v : Value) :
    s.readOpen build (v.spelledSection (Spelling.ofFields fields)) = s.readOpen build v := by
  refine readOpen_spelledSection ⟨fun group hg e he v => ?_, keepsFlags_ofFields hf,
    hasTag_ofFields fields⟩ hb v
  by_cases hn : e.1 ∈ fields
  · rw [hs group hg e he hn, Spelling.ofFields_of_mem hn]
    show Reader.fault? Reader.texts v.spread = _
    rw [Reader.fault?, Reader.fault?, Reader.texts_spread]
  · rw [Spelling.ofFields_of_notMem hn]
    rfl

end Shape

theorem Entries.read_texts_ofFields (fields : List String) (name : String) (es : Entries)
    (default : List String) :
    (es.rewrite fun name => (Spelling.ofFields fields name).merged).read name Reader.texts default =
      es.read name Reader.texts default := by
  refine read_rewrite (fun v => ?_) es default
  unfold Spelling.ofFields
  split
  · exact Reader.texts_spread v
  · rfl

theorem Entries.read_ofFields {α : Type} (h : name ∉ fields) (r : Reader α) (es : Entries)
    (default : α) :
    (es.rewrite fun name => (Spelling.ofFields fields name).merged).read name r default =
      es.read name r default := by
  refine read_rewrite (fun v => ?_) es default
  rw [Spelling.ofFields_of_notMem h]
  rfl

end Fields

/-- The fields of a section with a schedule that take one text or a list of texts. -/
def Timing.textsFields : List String := ["schedule"]

def GenericSection.textsFields : List String := ["run-before", "run-after"]

def BackupSection.textsFields : List String := [
  "run-before", "run-after", "run-after-fail", "stdin-command", "source", "exclude", "iexclude",
  "exclude-file", "files-from", "tag", "schedule"]

theorem GenericSection.read_spelled (v : Value) :
    read (v.spelledSection (Spelling.ofFields textsFields)) = read v := by
  refine Shape.readOpen_ofFields (by decide) ?_ (fun es => ?_) v
  · simp only [shape, List.forall_mem_cons]
    simp
  · simp (disch := decide) only [ofEntries, Entries.read_texts_ofFields, Shape.flags_ofFields]

theorem BackupSection.read_spelled (v : Value) :
    read (v.spelledSection (Spelling.ofFields textsFields)) = read v := by
  refine Shape.readOpen_ofFields (by decide) ?_ (fun es => ?_) v
  · simp only [shape, Timing.checks, Hooks.checks, List.forall_mem_cons]
    simp [textsFields]
  · simp (disch := decide) only [ofEntries, Timing.ofEntries, Hooks.ofEntries,
      Entries.read_texts_ofFields, Entries.read_ofFields, Shape.flags_ofFields]

theorem RetentionSection.read_spelled (v : Value) :
    read (v.spelledSection (Spelling.ofFields Timing.textsFields)) = read v := by
  refine Shape.readOpen_ofFields (by decide) ?_ (fun es => ?_) v
  · simp only [shape, Timing.checks, List.forall_mem_cons]
    simp [Timing.textsFields]
  · simp (disch := decide) only [ofEntries, Timing.ofEntries, Entries.read_texts_ofFields,
      Entries.read_ofFields, Shape.flags_ofFields]

theorem ScheduledSection.read_spelled (v : Value) :
    read (v.spelledSection (Spelling.ofFields Timing.textsFields)) = read v := by
  refine Shape.readOpen_ofFields (by decide) ?_ (fun es => ?_) v
  · simp only [shape, Timing.checks, Hooks.checks, List.forall_mem_cons]
    simp [Timing.textsFields]
  · simp (disch := decide) only [ofEntries, Timing.ofEntries, Hooks.ofEntries,
      Entries.read_texts_ofFields, Entries.read_ofFields, Shape.flags_ofFields]

theorem CopySection.read_spelled (v : Value) :
    read (v.spelledSection (Spelling.ofFields Timing.textsFields)) = read v := by
  refine Shape.readOpen_ofFields (by decide) ?_ (fun es => ?_) v
  · simp only [shape, Timing.checks, Hooks.checks, List.forall_mem_cons]
    simp [Timing.textsFields]
  · simp (disch := decide) only [ofEntries, Timing.ofEntries, Hooks.ofEntries,
      Entries.read_texts_ofFields, Entries.read_ofFields, Shape.flags_ofFields]

end BackupProfiles
