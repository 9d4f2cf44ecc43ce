import BackupProfiles.Proofs.Duration.Whole
import BackupProfiles.Proofs.Reading.Accept
import BackupProfiles.Proofs.Traversal
import BackupProfiles.Section.Retention

/-!
# Reading what was written

Values are read from more forms than they are written in, but what is written is read as what it
was: texts (`Reader.texts_written`), choices (`Choice.read_toValue`), durations of whole seconds
(`Reader.duration_written`) and every flag that was read before (`FlagValue.ofValue_toValue`).

A written section is its fields with its flags behind them. Reading it needs each field to pass its
own check, and finds the fields and the flags again as long as no flag has the name of a field
(`Shape.readOpen_record`, `Shape.flags_record`, `Shape.get?_record`).
-/

namespace BackupProfiles

variable {v w : Value} {name : String} {es : Entries}

theorem Value.hasTag_texts (items : List String) : (Written.texts items).hasTag = false := by
  rw [Written.texts, hasTag]
  induction items with
  | nil => rfl
  | cons s rest ih =>
    rw [List.map_cons, anyHasTag, ih]
    rfl

namespace Reader

theorem fault?_of_ok {α : Type} {r : Reader α} {a : α} (h : r v = .ok a) : r.fault? v = none := by
  rw [fault?, h]

theorem text_string (s : String) : text (.string s) = .ok s := rfl

theorem switch_bool (b : Bool) : switch (.bool b) = .ok b := rfl

theorem allTexts?_map_string (items : List String) :
    allTexts? (items.map .string) = some items := by
  induction items with
  | nil => rfl
  | cons s rest ih => rw [List.map_cons, allTexts?, ih, Option.map_some]

theorem texts_written (items : List String) : texts (Written.texts items) = .ok items := by
  rw [Written.texts, texts, allTexts?_map_string]

/-- A duration that is written as it is. -/
theorem duration_written {wait? : Option Duration}
    (h : ∀ d, wait? = some d → ∃ s < 2 ^ 53, d = ⟨s * Duration.nanosecondsPerSecond⟩) :
    duration (Written.wait wait?) = .ok wait? := by
  rcases wait? with _ | d
  · rfl
  · obtain ⟨s, hs, rfl⟩ := h d rfl
    have hblank := Duration.isAllBlank_text_whole s
    simp only [Written.wait, duration, hblank, Duration.read_text_whole hs, Bool.false_eq_true,
      if_false]

end Reader

namespace Choice

theorem read_toValue (c : Choice) : read c.toValue = .ok c := by
  cases c with
  | values items =>
    have hitems : (items.map Value.string).mapM readItem = .ok items :=
      mapM_map_eq_ok (fun s => show readItem (.string s) = .ok s from rfl) items
    rw [toValue, Written.texts, read, hitems]
    rfl
  | _ => rfl

theorem hasTag_toValue (c : Choice) : c.toValue.hasTag = false := by
  cases c with
  | values items => exact Value.hasTag_texts items
  | _ => rfl

end Choice

namespace FlagValue

/-- What a flag was read from, tags aside. -/
inductive Origin : Value → FlagValue → Prop where
  | null : Origin .null (.text "")
  | switch (b : Bool) : Origin (.bool b) (.switch b)
  | number (n : Number) : Origin (.number n) (ofNumber n)
  | text (s : String) : Origin (.string s) (.text s)
  | list (items : List Value) (texts : List String) : Origin (.list items) (.list texts)

theorem origin_of_ofValue {x : FlagValue} (h : ofValue v = .ok x) : Origin v.untagged x := by
  rw [← ofValue_untagged] at h
  rcases hv : v.untagged with _ | b | n | s | items | m | _ <;> rw [hv] at h
  case null => cases h; exact .null
  case bool => cases h; exact .switch b
  case number => cases h; exact .number n
  case string => cases h; exact .text s
  case list =>
    rw [ofValue] at h
    rcases hi : items.mapM ofItem with why | texts <;> rw [hi] at h <;> cases h
    exact .list items texts
  case mapping => cases h
  case tagged => exact absurd hv (Value.untagged_ne_tagged v)

theorem lt_of_origin_integer {n : Int} (h : Origin v (.integer n)) : n < Text.wordBound 63 := by
  generalize hx : FlagValue.integer n = x at h
  cases h with
  | number m =>
    rcases m with i | y
    · rw [ofNumber] at hx
      split at hx
      next hi =>
        cases hx
        exact hi
      next => cases hx
    · cases hx
  | _ => cases hx

/-- A flag that was read is written as a value that it is read from. -/
theorem ofValue_toValue {x : FlagValue} (h : ofValue v = .ok x) : ofValue x.toValue = .ok x := by
  cases x with
  | integer n => rw [toValue, ofValue, ofNumber, if_pos (lt_of_origin_integer (origin_of_ofValue h))]
  | list items =>
    have hitems : (items.map Value.string).mapM ofItem = .ok items :=
      mapM_map_eq_ok (fun _ => by rw [ofItem]) items
    rw [toValue, ofValue, hitems]
    rfl
  | _ => rfl

theorem hasTag_toValue (x : FlagValue) : x.toValue.hasTag = false := by
  cases x with
  | list items => exact Value.hasTag_texts items
  | _ => rfl

end FlagValue

/-! ## Sections -/

theorem Entries.read_of_ok {α : Type} {r : Reader α} {a default : α} (hget : es.get? name = some v)
    (hr : r v = .ok a) : es.read name r default = a := by
  rw [Entries.read, hget]
  simp only [hr]

/-- Flags that can stand behind the fields of a section. -/
structure Shape.Writes (s : Shape) (t : Table FlagValue) : Prop where
  other : ∀ e ∈ t.entries, e.1 ∉ s.fieldNames
  fixed : ∀ e ∈ t.entries, FlagValue.ofValue e.2.toValue = .ok e.2

/-- Fields that a section can be read from. -/
structure Shape.Reads (s : Shape) (fields : Entries) : Prop where
  nodup : (fields.map (·.1)).Nodup
  names : ∀ e ∈ fields, e.1 ∈ s.fieldNames
  passes : ∀ e ∈ fields, ∀ g ∈ s.own :: s.groups, g.Passes e.1 e.2
  tagless : ∀ e ∈ fields, e.2.hasTag = false

namespace Shape

variable {s : Shape} {fields : Entries} {t : Table FlagValue}

theorem writes_flags (s : Shape) (es : Entries) : s.Writes (s.flags es) := by
  refine ⟨fun e he => ?_, fun e he => ?_⟩
  · exact (mem_of_get?_flags (Table.get?_of_mem he)).1
  · obtain ⟨-, w, -, hw⟩ := mem_of_get?_flags (Table.get?_of_mem he)
    exact FlagValue.ofValue_toValue hw

theorem keys_flags (t : Table FlagValue) : (Written.flags t).map (·.1) = t.keys := by
  rw [Written.flags, List.map_map]
  rfl

theorem nodup_record (hf : s.Reads fields) (ht : s.Writes t) :
    ((fields ++ Written.flags t).map (·.1)).Nodup := by
  rw [List.map_append, keys_flags]
  refine List.Nodup.append hf.nodup t.nodup_keys fun name hfield hflag => ?_
  obtain ⟨e, he, rfl⟩ := List.mem_map.1 hfield
  obtain ⟨x, hx, hname⟩ := List.mem_map.1 hflag
  exact ht.other x hx (hname ▸ hf.names e he)

theorem lookup_eq_none_of_notMem {g : FieldChecks} (hg : g ∈ s.own :: s.groups)
    (h : name ∉ s.fieldNames) : g.lookup name = none := by
  rw [FieldChecks.lookup_eq_none_iff]
  rcases List.mem_cons.1 hg with rfl | hg
  · exact fun hn => h (List.mem_append_left _ hn)
  · exact fun hn => h (List.mem_append_right _ (List.mem_flatMap.2 ⟨g, hg, hn⟩))

theorem accepts_flag (ht : s.Writes t) {e : String × FlagValue} (he : e ∈ t.entries) :
    s.Accepts e.1 e.2.toValue where
  passes _ hg := FieldChecks.passes_of_lookup_none (lookup_eq_none_of_notMem hg (ht.other e he))
  untagged _ := e.2.hasTag_toValue
  flag _ := ⟨e.2, ht.fixed e he⟩

theorem accepts_record (hf : s.Reads fields) (ht : s.Writes t) :
    ∀ e ∈ fields ++ Written.flags t, s.Accepts e.1 e.2 := by
  intro e he
  rcases List.mem_append.1 he with he | he
  · exact ⟨hf.passes e he, fun _ => hf.tagless e he, fun h => absurd (hf.names e he) h⟩
  · obtain ⟨x, hx, rfl⟩ := List.mem_map.1 he
    exact accepts_flag ht hx

theorem readOpen_record {σ : Type} (build : Entries → σ) (hf : s.Reads fields) (ht : s.Writes t) :
    s.readOpen build (Written.record (fields ++ Written.flags t))
      = .ok (build (fields ++ Written.flags t)) := by
  have hfault := (fault?_map_string_eq_none_iff (nodup_record hf ht)).2 (accepts_record hf ht)
  simp only [readOpen, Written.record, Value.untagged, hfault, Entries.ofMapping_map_string]

/-- The flags of a written section are the ones it was written with. -/
theorem flags_record (hf : s.Reads fields) (ht : s.Writes t) :
    s.flags (fields ++ Written.flags t) = t := by
  refine Table.ext_get? fun key => ?_
  rw [get?_flags (nodup_record hf ht)]
  have hholds : ∀ x, t.get? key = some x →
      key ∉ s.fieldNames ∧ FlagValue.ofValue? x.toValue = some x := fun x hx => by
    have hmem : (key, x) ∈ t.entries := mem_of_entryFor? hx
    exact ⟨ht.other _ hmem, FlagValue.ofValue?_eq_some.2 (ht.fixed _ hmem)⟩
  by_cases hfield : key ∈ s.fieldNames
  · rw [if_pos hfield]
    exact (Option.eq_none_iff_forall_ne_some.2 fun x hx => (hholds x hx).1 hfield).symm
  · have hfields : entryFor? fields key = none := by
      rw [entryFor?_eq_none_iff, List.mem_map]
      rintro ⟨e, he, rfl⟩
      exact hfield (hf.names e he)
    have hflags : entryFor? (Written.flags t) key = (t.get? key).map FlagValue.toValue :=
      entryFor?_map (fun _ => FlagValue.toValue) t.entries key
    rw [if_neg hfield, Entries.get?_eq, entryFor?_append, hfields, Option.none_or, hflags]
    rcases hx : t.get? key with _ | x
    · rfl
    · exact (hholds x hx).2

/-- A field of a written section is what was written for it. -/
theorem get?_record (hf : s.Reads fields) (ht : s.Writes t) :
    ∀ e ∈ fields, Entries.get? (fields ++ Written.flags t) e.1 = some e.2 := fun _ he =>
  (Entries.mem_iff_get? (nodup_record hf ht)).1 (List.mem_append_left _ he)

end Shape

end BackupProfiles
