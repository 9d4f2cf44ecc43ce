import BackupProfiles.Proofs.Profile.Resolved
import BackupProfiles.Proofs.Spelling.Profile
import BackupProfiles.Proofs.Value.KeyText

/-!
# Writing one text as a list

A `TextsPlace` is a field of a body or of a section that takes one text or a list of texts, or a
marker of such a field. Writing the list of one text for the text there changes no profile that is
resolved (`Config.resolve_respell`), neither the profile itself nor one that inherits from it:
spelled out, the bodies are the same. Behind the tag of a section no key is a marker, so there the
text of a marker is the value of a flag, and it makes a difference (`Config.marker_behind_tag`).
-/

namespace BackupProfiles

variable {spelling : String → Spelling} {table : CommandTable}

/-- A place in a body where a list of texts can stand, or one text for it. -/
structure TextsPlace where
  /-- The section, none for the body itself. -/
  within? : Option String
  field : String
  /-- The end a marker adds to, none for the field itself. -/
  side? : Option ListEnd
  deriving DecidableEq, Repr

/-- The fields of a body, or of a section, that take one text or a list of texts. -/
def CommandTable.textsFields (t : CommandTable) : Option String → List String
  | none => Profile.textsFields.filter fun name => !t.isGeneric name
  | some name =>
    if t.isGeneric name then GenericSection.textsFields else Profile.sectionTextsFields name

namespace TextsPlace

variable (p : TextsPlace)

/-- The keys that name the place; a key with a tag names a field and is no marker. -/
def NamedBy (key : Value) : Prop :=
  match p.side? with
  | none => key.keyName = p.field
  | some side => key = Marker.key ⟨p.field, side⟩

instance (key : Value) : Decidable (p.NamedBy key) := by
  unfold NamedBy
  split <;> infer_instance

/-- One text at the place written as the list of it, in the mapping with the field. -/
def respellEntries (m : Mapping) : Mapping :=
  m.mapValues fun key v => if p.NamedBy key then v.spread else v

/-- One text at the place written as the list of it, in the section. -/
def respellSection (v : Value) : Value :=
  match p.side?, v with
  | none, v => v.reviseMapping p.respellEntries
  | some _, .mapping m => .mapping (p.respellEntries m)
  | some _, v => v

/-- One text at the place written as the list of it, in the body. -/
def respell (body : Mapping) : Mapping :=
  match p.within? with
  | none => p.respellEntries body
  | some name => body.reviseAt [name] p.respellSection

/-- The place is one of a field that takes one text or a list of texts. A key that is a marker
stands for no section. -/
structure Valid (table : CommandTable) (p : TextsPlace) : Prop where
  mem : p.field ∈ table.textsFields p.within?
  section_plain : ∀ name, p.within? = some name → Marker.ofText? name = none

end TextsPlace

section Fields

variable {p : TextsPlace} {name : String}

theorem Profile.sectionTextsFields_subset (name : String) :
    sectionTextsFields name ⊆ BackupSection.textsFields := by
  unfold sectionTextsFields
  split <;> decide

theorem CommandTable.textsFields_subset (t : CommandTable) (within? : Option String) :
    t.textsFields within? ⊆ "run-finally" :: BackupSection.textsFields := by
  unfold textsFields
  split
  · have hown : Profile.textsFields ⊆ "run-finally" :: BackupSection.textsFields := by decide
    exact fun _ h => hown (List.mem_of_mem_filter h)
  · split
    · decide
    · exact fun _ h => List.mem_cons_of_mem _ (Profile.sectionTextsFields_subset _ h)

namespace TextsPlace.Valid

theorem nameable (h : p.Valid table) : Marker.Nameable p.field := by
  have hfields : ∀ field ∈ "run-finally" :: BackupSection.textsFields,
      Marker.ofText? field = none ∧ field.toList.any (fun c => c ≠ '.') = true := by decide
  obtain ⟨hplain, hother⟩ := hfields p.field (table.textsFields_subset _ h.mem)
  exact ⟨hplain, by simpa using hother⟩

/-- Numbers and booleans go by no such name. -/
theorem untagged_eq (h : p.Valid table) {key : Value} (hk : key.keyName = p.field) :
    key.untagged = .string p.field := by
  have hfields : ∀ field ∈ "run-finally" :: BackupSection.textsFields,
      ¬ field.toList.all isNumeric ∧ field ∉ ["true", "false"] := by decide
  obtain ⟨hnumber, hbool⟩ := hfields p.field (table.textsFields_subset _ h.mem)
  exact Value.untagged_of_keyName hk hnumber hbool

end TextsPlace.Valid

/-- A setting with such a field in it is spelled as a section. -/
theorem Spelling.ofBody_section {field : String} (h : field ∈ table.textsFields (some name)) :
    ofBody table name = nested (ofFields (table.textsFields (some name))) := by
  have hfields : table.textsFields (some name) =
      if table.isGeneric name then GenericSection.textsFields
      else Profile.sectionTextsFields name := rfl
  rcases hg : table.isGeneric name with _ | _ <;> simp only [hg, if_true, Bool.false_eq_true,
    if_false] at hfields <;> rw [hfields] at h ⊢
  · have hnone : ∀ name ∈ Profile.textsFields, Profile.sectionTextsFields name = [] := by decide
    have hn : name ∉ Profile.textsFields := fun hn => by
      rw [hnone name hn] at h
      exact List.not_mem_nil h
    rw [ofBody_of_not_generic hg, ofSetting_of_notMem hn]
  · exact ofBody_of_generic hg

theorem Spelling.ofBody_field (h : name ∈ table.textsFields none) : ofBody table name = texts := by
  obtain ⟨hn, hg⟩ := List.mem_filter.1 h
  rw [ofBody_of_not_generic (by simpa using hg), ofSetting_of_mem hn]

end Fields

theorem Mapping.written_reviseAt {name : String} {revise : Value → Value}
    (hn : Marker.ofText? name = none)
    (h : ∀ v, (spelling name).written (revise v) = (spelling name).written v) (m : Mapping) :
    written spelling (m.reviseAt [name] revise) = written spelling m := by
  have hplain : Marker.ofKey? (.string name) = none := hn
  unfold written
  rw [show m.reviseAt [name] revise = m.mapValues fun key v =>
    if key ∈ [name].map Value.string then revise v else v from rfl, mapValues_mapValues]
  refine mapValues_congr fun e _ => ?_
  split
  · rename_i hkey
    obtain hkey : e.1 = .string name := by simpa using hkey
    rw [hkey, writtenValue, writtenValue, hplain]
    exact h e.2
  · rfl

namespace TextsPlace

variable {p : TextsPlace} {key : Value} {side : ListEnd}

theorem namedBy_of_none (hp : p.side? = none) : p.NamedBy key ↔ key.keyName = p.field := by
  unfold NamedBy
  rw [hp]

theorem namedBy_of_some (hp : p.side? = some side) :
    p.NamedBy key ↔ key = Marker.key ⟨p.field, side⟩ := by
  unfold NamedBy
  rw [hp]

/-- The name of a field is the key of no marker. -/
theorem ofKey?_of_keyName (hn : Marker.Nameable p.field) (hk : key.keyName = p.field) :
    Marker.ofKey? key = none := by
  refine Option.eq_none_iff_forall_ne_some.2 fun marker hm => ?_
  obtain ⟨s, rfl, hs⟩ := Marker.ofKey?_eq_some.1 hm
  obtain rfl : s = p.field := hk
  rw [hn.plain] at hs
  cases hs

/-- The text and the list of it are spelled in one way. -/
theorem writtenValue_spread (h : p.Valid table) (hs : spelling p.field = .texts)
    (hk : p.NamedBy key) (v : Value) :
    Mapping.writtenValue spelling key v.spread = Mapping.writtenValue spelling key v := by
  have hvalue : Mapping.writtenValue spelling key = Value.spread := by
    funext v
    rw [Mapping.writtenValue]
    rcases hp : p.side? with _ | side
    · rw [namedBy_of_none hp] at hk
      rw [ofKey?_of_keyName h.nameable hk]
      dsimp only
      rw [Spelling.at_of_untagged spelling (h.untagged_eq hk), hs]
      rfl
    · rw [namedBy_of_some hp] at hk
      simp only [hk, h.nameable.ofKey?_key, hs]
      rfl
  rw [hvalue, v.spread_spread]

theorem written_respellEntries (h : p.Valid table) (hs : spelling p.field = .texts)
    (m : Mapping) :
    Mapping.written spelling (p.respellEntries m) = Mapping.written spelling m := by
  unfold Mapping.written respellEntries
  rw [Mapping.mapValues_mapValues]
  refine Mapping.mapValues_congr fun e _ => ?_
  split
  · exact writtenValue_spread h hs ‹_› e.2
  · rfl

/-- Behind a tag, too, the value of a field is spelled in one way. -/
theorem spelled_respellEntries (h : p.Valid table) (hp : p.side? = none)
    (hs : spelling p.field = .texts) (m : Mapping) :
    Mapping.spelled spelling (p.respellEntries m) = Mapping.spelled spelling m := by
  unfold Mapping.spelled respellEntries
  rw [Mapping.mapValues_mapValues]
  refine Mapping.mapValues_congr fun e _ => ?_
  split
  · rename_i hk
    rw [Spelling.at_of_untagged spelling (h.untagged_eq ((namedBy_of_none hp).1 hk)), hs]
    exact e.2.spread_spread
  · rfl

theorem writtenSection_respellSection (h : p.Valid table)
    (hs : spelling p.field = .texts) (v : Value) :
    (p.respellSection v).writtenSection spelling = v.writtenSection spelling := by
  have hmapping : ∀ m : Mapping, Value.writtenSection spelling (.mapping (p.respellEntries m)) =
      Value.writtenSection spelling (.mapping m) := fun m => by
    rw [Value.writtenSection, Value.writtenSection, written_respellEntries h hs]
  unfold respellSection
  rcases hp : p.side? with _ | side
  · have hspelled := funext (spelled_respellEntries h hp hs)
    cases v with
    | mapping m => exact hmapping m
    | tagged tag v => exact (Value.reviseMapping_reviseMapping _ _ _).trans (by rw [hspelled]; rfl)
    | _ => rfl
  · cases v with
    | mapping m => exact hmapping m
    | _ => rfl

/-- Spelled out, the body is the same. -/
theorem written_respell (h : p.Valid table) (body : Mapping) :
    Mapping.written (Spelling.ofBody table) (p.respell body) =
      Mapping.written (Spelling.ofBody table) body := by
  have hmem := h.mem
  unfold respell
  rcases hw : p.within? with _ | name <;> rw [hw] at hmem
  · exact written_respellEntries h (Spelling.ofBody_field hmem) body
  · refine Mapping.written_reviseAt (h.section_plain name hw) (fun v => ?_) body
    rw [Spelling.ofBody_section hmem]
    exact writtenSection_respellSection h (Spelling.ofFields_of_mem hmem) v

theorem not_namedBy_inherit (h : p.Valid table) : ¬ p.NamedBy (.string "inherit") := by
  intro hk
  rcases hp : p.side? with _ | side
  · have hno : "inherit" ∉ "run-finally" :: BackupSection.textsFields := by decide
    rw [namedBy_of_none hp, Value.keyName_string] at hk
    rw [hk] at hno
    exact hno (table.textsFields_subset _ h.mem)
  · have hno : Marker.ofKey? (.string "inherit") = none := by decide
    rw [(namedBy_of_some hp).1 hk, h.nameable.ofKey?_key] at hno
    cases hno

/-- Writing texts as lists changes no parent. -/
theorem parentName?_respell (h : p.Valid table) (body : Mapping) :
    parentName? (p.respell body) = parentName? body := by
  rcases hw : p.within? with _ | name <;> rw [respell, hw] <;> dsimp only
  · rw [parentName?, parentName?, respellEntries, Mapping.get?_mapValues_string]
    simp only [not_namedBy_inherit h, if_false, Option.map_id']
  · rw [parentName?, parentName?, Mapping.get?_reviseAt_string]
    rcases body.get? (.string "inherit") with _ | v
    · rfl
    · rw [Option.map_some]
      split_ifs
      · -- a text is no section, and a section is no text
        unfold respellSection
        cases v <;> cases p.side? <;> rfl
      · rfl

/-- A chain with texts written as lists is read to the same. -/
theorem decode_respell (h : p.Valid table) (names : List String) (name : String)
    (layers : List Layer) :
    decode table name (mergeLayers (layers.map (Layer.revise names p.respell))) =
      decode table name (mergeLayers layers) := by
  have hwritten :
      (layers.map (Layer.revise names p.respell)).map (Layer.written (Spelling.ofBody table)) =
        layers.map (Layer.written (Spelling.ofBody table)) := by
    rw [List.map_map]
    refine List.map_congr_left fun layer _ => ?_
    simp only [Function.comp_apply, Layer.revise, Layer.written, Layer.mk.injEq, true_and]
    split_ifs
    · exact written_respell h layer.body
    · rfl
  rw [← decode_spelled, ← mergeLayers_spelled, hwritten, mergeLayers_spelled, decode_spelled]

end TextsPlace

namespace Config

variable {c : Config} {place : TextsPlace}

/-- One text and the list of it are interchangeable: writing the list for the text at a place, in
the bodies of any profiles, changes nothing that a profile is resolved to, through any
inheritance. -/
theorem resolve_respell (h : place.Valid c.table) (names : List String) (s : Surroundings)
    (name : String) :
    { c with document := c.document.reviseBodies names place.respell }.resolve s name =
      c.resolve s name := by
  set c' : Config := { c with document := c.document.reviseBodies names place.respell }
  have hwalk : ancestry c'.profiles name = (ancestry c.profiles name).map
      (List.map (Layer.revise names place.respell)) :=
    ancestry_revise (TextsPlace.parentName?_respell h) c.document names c.file name
  rcases hc : ancestry c.profiles name with e | layers <;> rw [hc] at hwalk
  · rw [resolve, resolve, mergedBody, mergedBody, hwalk, hc]
    rfl
  · have hdecode := TextsPlace.decode_respell h names name layers
    rw [resolve_of_mergedBody (mergedBody_of_ancestry hwalk) s,
      resolve_of_mergedBody (mergedBody_of_ancestry hc) s]
    show Resolved.mk (((decode c.table name _).result.mapError _).map _)
      (decode c.table name _).issues = _
    rw [hdecode]
    rfl

def heirProfiles (source : Value) : Mapping := [
  (.string "base", .mapping [(.string "backup", .mapping [(.string "source", .string "a")])]),
  (.string "heir", .mapping [
    (.string "inherit", .string "base"),
    (.string "backup", .mapping [(.string "source...", source)])])]

/-- A document whose profiles have one source each, the second with a marker. -/
def heirs (source : Value) : Document := ⟨heirProfiles source⟩

/-- The marker of the sources. -/
def moreSources : TextsPlace := ⟨some "backup", "source", some .back⟩

theorem valid_moreSources : moreSources.Valid .builtin :=
  ⟨by decide, fun name h => by cases h; decide⟩

theorem resolve_heir : ∃ p, ((ofDocument (heirs (.string "b")) "").resolve default "heir").result =
    .ok p ∧ p.backup?.map (·.source) = some ["a", "b"] := by
  have hroot : (ofDocument (heirs (.string "b")) "").profiles = heirProfiles (.string "b") := by
    decide
  have hmerged : mergedBody (heirProfiles (.string "b")) "heir" = .ok [
      (.string "backup", .mapping [(.string "source", .list [.string "a", .string "b"])]),
      (.string "inherit", .string "base")] := by
    have hparent : parentName? [(.string "inherit", .string "base"),
        (.string "backup", .mapping [(.string "source...", .string "b")])] = some "base" := by
      decide
    rw [mergedBody, ancestry, ancestryFrom_parent (by decide) rfl rfl hparent,
      ancestryFrom_last (by decide) rfl rfl (by decide)]
    exact toOption_eq_some.1 (by decide +kernel)
  rw [resolve, hroot, hmerged]
  exact ⟨_, rfl, rfl⟩

theorem resolve_respell_heir :
    (∃ p, ((ofDocument (heirs (.string "b")) "").resolve default "heir").result = .ok p ∧
      p.backup?.map (·.source) = some ["a", "b"]) ∧
    moreSources.Valid .builtin ∧
    (heirs (.string "b")).reviseBodies ["heir"] moreSources.respell =
      heirs (.list [.string "b"]) ∧
    (ofDocument (heirs (.list [.string "b"])) "").resolve default "heir" =
      (ofDocument (heirs (.string "b")) "").resolve default "heir" := by
  have hrespelled : (heirs (.string "b")).reviseBodies ["heir"] moreSources.respell =
      heirs (.list [.string "b"]) := by decide
  refine ⟨resolve_heir, valid_moreSources, hrespelled, ?_⟩
  have hsame := resolve_respell (c := ofDocument (heirs (.string "b")) "") valid_moreSources
    ["heir"] default "heir"
  rw [← hrespelled]
  exact hsame

def sealedText (run : String) : String :=
  "a:\n  backup: !t\n    run-before...: " ++ run ++ "\n"

def sealedBody (run : Value) : Mapping :=
  [(.string "backup", .tagged "!t" (.mapping [(.string "run-before...", run)]))]

/-- A document whose profile has a section with a tag. -/
def sealedDocument (run : Value) : Document := ⟨[(.string "a", .mapping (sealedBody run))]⟩

theorem mergedBody_sealed (run : Value) :
    mergedBody (ofDocument (sealedDocument run) "").profiles "a" = .ok (sealedBody run) := by
  have hroot : (ofDocument (sealedDocument run) "").profiles = (sealedDocument run).root := rfl
  rw [hroot, mergedBody, ancestry, ancestryFrom_last (by decide) rfl rfl rfl]
  rfl

/-- Merging does not look behind the tag of a section. There the key is no marker, and the empty
text in it and the list of that are the values of two flags, one suppressed, one not. -/
theorem marker_behind_tag :
    Document.parse .yaml (sealedText "\"\"") = .ok (sealedDocument (.string "")) ∧
    Document.parse .yaml (sealedText "[\"\"]") = .ok (sealedDocument (.list [.string ""])) ∧
    Marker.ofText? "run-before..." = some ⟨"run-before", .back⟩ ∧
    ∃ p q, ((ofDocument (sealedDocument (.string "")) "").resolve default "a").result = .ok p ∧
      ((ofDocument (sealedDocument (.list [.string ""])) "").resolve default "a").result = .ok q ∧
      (p.commandFlags default .initial "backup").get? "run-before..." = none ∧
      (q.commandFlags default .initial "backup").get? "run-before..." = some [""] ∧ p ≠ q := by
  rw [resolve, resolve, mergedBody_sealed, mergedBody_sealed]
  refine ⟨toOption_eq_some.1 (by decide +kernel), toOption_eq_some.1 (by decide +kernel), by decide,
    _, _, rfl, rfl, by decide, by decide, fun h => ?_⟩
  have hflags := congrArg (fun p : Profile => p.backup?.map fun b => b.flags.get? "run-before...") h
  exact absurd hflags (by decide)

end Config

end BackupProfiles
