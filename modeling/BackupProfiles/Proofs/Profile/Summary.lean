import BackupProfiles.Proofs.Document.Listing
import BackupProfiles.Proofs.Merge.Chain
import BackupProfiles.Proofs.Profile.GenericSections
import BackupProfiles.Proofs.Profile.Settings

/-!
# Summaries and resolved profiles

The summary of a profile is taken from the shapes of the values in its body, while the sections of
a resolved profile are read from its merged body. For a profile without a parent that is resolved
without an issue, the two differ in three ways only (`Listed`): the environment is a map and
no section, a generic section can be null, and a tag stands in front of a section or a description.
-/

namespace BackupProfiles

variable {body merged : Mapping} {key v w : Value} {n name : String} {p q : Profile}
  {items : List Value} {m : Mapping}

/-- The names of the sections with a shape of their own. -/
def shapedNames : List String :=
  ["backup", "check", "copy", "forget", "init", "prune", "retention"]

section FirstBody

namespace Mapping

/-- Where no other key has the text, the last entry with it is the only one. -/
theorem lastNamed?_eq (hm : m.keys.Nodup)
    (h : ∀ key : Value, key.keyText = some n → key = .string n) :
    m.lastNamed? n = m.get? (.string n) := by
  have hkey : ∀ e : Value × Value,
      decide (e.1.keyText = some n) = e.1.sameKey (.string n) := fun e => by
    rw [Bool.eq_iff_iff, decide_eq_true_eq, Value.sameKey_string]
    exact ⟨h e.1, fun he => he ▸ rfl⟩
  have hreverse : (keys m.reverse).Nodup := by
    rw [keys, List.map_reverse]
    exact List.nodup_reverse.2 hm
  rw [lastNamed?, funext hkey]
  refine Option.ext fun v => ?_
  exact (get?_eq_some_iff hreverse).trans (List.mem_reverse.trans (get?_eq_some_iff hm).symm)

theorem distinct_overlayPlain_nil (body : Mapping) : (overlayPlain [] body).Distinct :=
  Distinct.nil.overlayPlain

theorem nodup_overlay_nil (body : Mapping) : (overlay [] body).keys.Nodup :=
  (tidy_overlay .nil).nodup

/-- Laid over nothing, a value keeps its form. -/
theorem overlayValue_none_cases (w : Value) : overlayValue none w = w ∨
    ∃ m inner, w = .mapping m ∧ overlayValue none w = .mapping inner := by
  cases w with
  | mapping m => exact Or.inr ⟨m, _, rfl, overlayValue_mapping none m⟩
  | _ => exact Or.inl (overlayValue_of_not_mapping none rfl)

/-- What the first body of a chain comes to at a key is a list that a marker makes, or a value of
the body that is laid over nothing. -/
theorem get?_overlay_nil (hb : body.Distinct)
    (h : (overlay [] body).get? (.string n) = some v) (hv : v.kind ≠ .list) :
    ∃ w, body.get? (.string n) = some w ∧ v = overlayValue none w := by
  rw [overlay, get?_applyMarkers_base (distinct_overlayPlain_nil body) hb] at h
  unfold gathered at h
  split at h
  · by_cases hk : Marker.ofKey? (.string n) = none
    · rw [get?_overlayPlain hb hk, get?_nil] at h
      rcases hw : body.get? (.string n) with _ | w
      · rw [hw] at h
        cases h
      · rw [hw] at h
        exact ⟨w, rfl, (Option.some.inj h).symm⟩
    · rw [get?_overlayPlain_marker hk] at h
      cases h
  · obtain rfl := Option.some.inj h
    exact absurd rfl hv

/-- No key of the first body is lost that is no marker. -/
theorem get?_of_overlay_nil (hb : body.Distinct) (hk : Marker.ofKey? (.string n) = none)
    (h : (overlay [] body).get? (.string n) = none) : body.get? (.string n) = none := by
  rw [overlay, get?_applyMarkers_base (distinct_overlayPlain_nil body) hb, get?_overlayPlain hb hk,
    get?_nil] at h
  unfold gathered at h
  split at h
  · rcases hw : body.get? (.string n) with _ | w
    · rfl
    · rw [hw] at h
      cases h
  · cases h

/-- A list that markers gather has the mappings of its parts. -/
theorem exists_gathered (front? held? back? : Option Value) (hm : front? ≠ none ∨ back? ≠ none)
    (h : front? = some (.mapping m) ∨ held? = some (.mapping m) ∨ back? = some (.mapping m)) :
    ∃ items, gathered front? held? back? = some (.list items) ∧ .mapping m ∈ items := by
  refine ⟨itemsOf front? ++ itemsOf held? ++ itemsOf back?, ?_, ?_⟩
  · unfold gathered
    split
    · simp at hm
    · rfl
  · rcases h with rfl | rfl | rfl <;> simp [itemsOf, Value.items]

theorem markerValue?_of_mem (hb : body.Distinct) {marker : Marker} (h : (key, v) ∈ body)
    (hk : Marker.ofKey? key = some marker) : body.markerValue? marker = some v := by
  have hkey := Marker.eq_key_of_ofKey? hk
  rw [markerValue?, if_pos (hkey ▸ hk), ← hkey]
  exact get?_of_mem hb h

/-- A mapping of the first body stays at its key, or it ends up in a list. -/
theorem get?_overlay_of_mapping (hb : body.Distinct) (h : (key, .mapping m) ∈ body) :
    (∃ base items inner, (overlay [] body).get? (.string base) = some (.list items) ∧
      .mapping inner ∈ items) ∨
    ∃ inner, (overlay [] body).get? key = some (.mapping inner) := by
  rw [overlay]
  simp only [get?_applyMarkers_base (distinct_overlayPlain_nil body) hb]
  rcases hk : Marker.ofKey? key with _ | marker
  · have hplain : (overlayPlain [] body).get? key = some (.mapping (overlay [] m)) := by
      rw [get?_overlayPlain hb hk, get?_of_mem hb h, overlayValue?, get?_nil,
        overlayValue_mapping]
      rfl
    by_cases hnames : body.Names key
    · obtain ⟨e, he, hbase⟩ := hnames
      obtain ⟨⟨base, side⟩, hmarker, rfl⟩ := Option.map_eq_some_iff.1 hbase
      have hvalue := markerValue?_of_mem hb he hmarker
      refine Or.inl ⟨base, ?_⟩
      obtain ⟨items, hitems, hmem⟩ := exists_gathered (body.markerValue? ⟨base, .front⟩) _
        (body.markerValue? ⟨base, .back⟩) (by cases side <;> simp [hvalue]) (Or.inr (Or.inl hplain))
      exact ⟨items, _, hitems, hmem⟩
    · rw [get?_applyMarkers_of_not_names (distinct_overlayPlain_nil body) hnames]
      exact Or.inr ⟨_, hplain⟩
  · obtain ⟨base, side⟩ := marker
    have hvalue := markerValue?_of_mem hb h hk
    refine Or.inl ⟨base, ?_⟩
    obtain ⟨items, hitems, hmem⟩ := exists_gathered (m := m) (body.markerValue? ⟨base, .front⟩)
      ((overlayPlain [] body).get? (.string base)) (body.markerValue? ⟨base, .back⟩)
      (by cases side <;> simp [hvalue]) (by cases side <;> simp [hvalue])
    exact ⟨items, _, hitems, hmem⟩

end Mapping

end FirstBody

section Clean

theorem Reader.of_optional_readOpen {σ : Type} {s : Shape} {build : Entries → σ} {a? : Option σ}
    (h : optional (s.readOpen build) v = .ok a?) :
    (v.untagged = .null ∨ ∃ m, v.untagged = .mapping m) ∧ (a?.isSome = true ↔ v ≠ .null) := by
  by_cases hv : v = .null
  · subst hv
    obtain rfl : none = a? := Except.ok.inj h
    simp [Value.untagged]
  · have hread : optional (s.readOpen build) v = (s.readOpen build v).map some := by
      cases v with
      | null => exact absurd rfl hv
      | _ => rfl
    rw [hread] at h
    rcases ha : s.readOpen build v with f | a
    · rw [ha] at h
      cases h
    · rw [ha] at h
      obtain rfl : some a = a? := Except.ok.inj h
      refine ⟨?_, by simp [hv]⟩
      unfold Shape.readOpen at ha
      split at ha
      · rename_i m hm
        exact Or.inr ⟨m, hm⟩
      · rename_i hm
        exact Or.inl hm
      · cases ha

theorem Reader.of_table {α : Type} {r : Reader α} {t : Table α} (h : table r v = .ok t) :
    v.untagged = .null ∨ ∃ m, v.untagged = .mapping m := by
  unfold table at h
  split at h
  · rename_i m hm
    exact Or.inr ⟨m, hm⟩
  · rename_i hm
    exact Or.inl hm
  · cases h

/-- The sections with a shape and the environment are read from null or a map. -/
theorem Profile.shaped_of_decoded (p : Profile) : ∀ e ∈ p.decoded, e.1 ∈ "env" :: shapedNames →
    ∀ v, e.2 v → (v.untagged = .null ∨ ∃ m, v.untagged = .mapping m) ∧
      (e.1 ∈ shapedNames → ((e.1, true) ∈ p.shapedSections ↔ v ≠ .null)) := by
  have hsection : ∀ {σ : Type} {s : Shape} {build : Entries → σ} {a? : Option σ} {n : String},
      ((n, true) ∈ p.shapedSections ↔ a?.isSome = true) → ∀ v,
      Reader.optional (s.readOpen build) v = .ok a? →
      (v.untagged = .null ∨ ∃ m, v.untagged = .mapping m) ∧
        (n ∈ shapedNames → ((n, true) ∈ p.shapedSections ↔ v ≠ .null)) := by
    intro σ s build a? n hn v hv
    obtain ⟨hform, hsome⟩ := Reader.of_optional_readOpen hv
    exact ⟨hform, fun _ => hn.trans hsome⟩
  simp only [decoded, List.forall_mem_cons]
  and_intros <;> first
    | exact fun hn => absurd hn (by decide)
    | exact fun _ v hv => ⟨Reader.of_table hv, fun hn => absurd hn (by decide)⟩
    | exact fun _ => hsection (by simp [shapedSections])
    | simp

/-- A list that stands in a flag has items with texts. -/
theorem FlagValue.text_of_mem {texts : List String} (h : items.mapM ofItem = .ok texts) :
    ∀ item ∈ items, ∃ s, ofItem item = .ok s := by
  induction items generalizing texts with
  | nil => exact nofun
  | cons first rest ih =>
    rw [List.mapM_cons] at h
    rcases hf : ofItem first with why | s
    · rw [hf] at h
      cases h
    · rcases hr : rest.mapM ofItem with why | others
      · rw [hf, hr] at h
        cases h
      · exact List.forall_mem_cons.2 ⟨⟨s, hf⟩, ih hr⟩

theorem Profile.mem_shapedNames (p : Profile) (h : (n, true) ∈ p.shapedSections) :
    n ∈ shapedNames :=
  List.mem_map_of_mem (f := Prod.fst) h

theorem mem_shapedNames_of_contains (h : CommandTable.builtin.contains n = true)
    (hg : CommandTable.builtin.isGeneric n = false) : n ∈ shapedNames := by
  rw [CommandTable.contains_iff_mem_names] at h
  revert n
  decide

theorem isGeneric_of_mem_shapedNames (h : n ∈ "env" :: shapedNames) :
    CommandTable.builtin.isGeneric n = false ∧ n ∈ Profile.shape.fieldNames := by
  revert n
  decide

theorem lastNamed?_of_generic (hn : merged.keys.Nodup)
    (hg : CommandTable.builtin.isGeneric n = true) :
    merged.lastNamed? n = merged.get? (.string n) :=
  Mapping.lastNamed?_eq hn fun _ hk =>
    Value.eq_string_of_generic hk (CommandTable.isGeneric_builtin.1 hg)

variable (hn : merged.keys.Nodup) (h : (decode .builtin name merged).result = .ok q)
  (hi : (decode .builtin name merged).issues = [])

include hn h hi

/-- Without an issue, every generic section is there. -/
theorem generic_of_clean (hg : CommandTable.builtin.isGeneric n = true)
    (hv : merged.get? (.string n) = some v) :
    (v = .null ∨ ∃ m, v = .mapping m) ∧ ∃ g, q.generic.get? n = some (some g) := by
  rw [← lastNamed?_of_generic hn hg] at hv
  rcases hr : readGeneric v with issue | g
  · have hmem := (mem_issues_of_decode h hg).2 ⟨v, hv, hr⟩
    rw [hi] at hmem
    cases hmem
  · have hs := readGeneric_eq_ok_iff.1 hr
    refine ⟨hs.imp And.left fun ⟨m, hm, _⟩ => ⟨m, hm⟩, g, ?_⟩
    exact (get?_generic_of_decode h).2 ⟨hg, List.count_eq_one_of_mem
      CommandTable.nodup_genericNames_builtin (CommandTable.isGeneric_builtin.1 hg), v, hv, hs⟩

omit hn h in
/-- Without an issue, every other entry is kept. -/
theorem keeps_of_clean (he : (key, v) ∈ merged) (hk : key.keyText = some n)
    (hg : CommandTable.builtin.isGeneric n = false) : Keeps .builtin n v := by
  rcases EntryRole.cases .builtin n v with hgeneric | hkeep | ⟨why, hw⟩
  · rw [hg] at hgeneric
    cases hgeneric
  · exact hkeep
  · have hmem := (mem_issues_iff_mem_refusedEntries hg name).2
      (mem_refusedEntries_iff.2 ⟨key, v, why, he, hk, hw, rfl⟩)
    rw [hi] at hmem
    cases hmem

theorem shaped_of_clean (hs : n ∈ "env" :: shapedNames) (hv : merged.get? (.string n) = some v) :
    (v.untagged = .null ∨ ∃ m, v.untagged = .mapping m) ∧
      (n ∈ shapedNames → ((n, true) ∈ q.shapedSections ↔ v ≠ .null)) := by
  obtain ⟨hg, hfield⟩ := isGeneric_of_mem_shapedNames hs
  have hkeep := keeps_of_clean hi (Mapping.mem_of_get? hv) rfl hg
  obtain ⟨read, hread, hr⟩ := holds_of_decode hn hfield hv h hkeep
  exact q.shaped_of_decoded _ hread hs v hr

/-- The sections of a profile without an issue, by the merged body. -/
theorem mem_definedSections_of_clean : n ∈ q.definedSections ↔
    ∃ v, merged.get? (.string n) = some v ∧
      ((n ∈ shapedNames ∧ v ≠ .null) ∨ CommandTable.builtin.isGeneric n = true) := by
  rw [Profile.mem_definedSections]
  constructor
  · rintro (hs | ⟨g, hg⟩)
    · obtain ⟨p, hp, hq, -⟩ := decode_of_rows h
      have hp' : (n, true) ∈ p.shapedSections := by
        rw [hq] at hs
        exact hs
      have hname := q.mem_shapedNames hs
      obtain ⟨v, hv, -⟩ := kept_of_shaped hn hp hp'
      exact ⟨v, hv, Or.inl ⟨hname,
        ((shaped_of_clean hn h hi (List.mem_cons_of_mem _ hname) hv).2 hname).1 hs⟩⟩
    · obtain ⟨hgeneric, -, v, hv, -⟩ := (get?_generic_of_decode h).1 hg
      rw [lastNamed?_of_generic hn hgeneric] at hv
      exact ⟨v, hv, Or.inr hgeneric⟩
  · rintro ⟨v, hv, ⟨hname, hnull⟩ | hgeneric⟩
    · exact Or.inl (((shaped_of_clean hn h hi (List.mem_cons_of_mem _ hname) hv).2 hname).2 hnull)
    · exact Or.inr (generic_of_clean hn h hi hgeneric hv).2

/-- Without an issue, no list has a map in it. -/
theorem mapping_notMem_of_clean (hv : merged.get? (.string n) = some (.list items)) :
    .mapping m ∉ items := by
  rcases hg : CommandTable.builtin.isGeneric n with _ | _
  · rcases keeps_of_clean hi (Mapping.mem_of_get? hv) rfl hg with ⟨-, hname | ⟨x, hx⟩⟩
    · have hs : n ∈ "env" :: shapedNames :=
        hname.elim (fun hc => List.mem_cons_of_mem _ (mem_shapedNames_of_contains hc hg))
          fun he => List.mem_cons.2 (Or.inl he)
      have hform := (shaped_of_clean hn h hi hs hv).1
      simp [Value.untagged] at hform
    · intro hm
      rcases htexts : items.mapM FlagValue.ofItem with why | texts
      · rw [FlagValue.ofValue, htexts] at hx
        cases hx
      · obtain ⟨text, htext⟩ := FlagValue.text_of_mem htexts _ hm
        cases htext
  · have hform := (generic_of_clean hn h hi hg hv).1
    simp at hform

omit hn h in
/-- Without an issue, a map is a section or the environment. -/
theorem name_of_clean (he : (key, .mapping m) ∈ merged) (hk : key.keyText = some n) :
    n ∈ "env" :: shapedNames ∨ CommandTable.builtin.isGeneric n = true := by
  rcases hg : CommandTable.builtin.isGeneric n with _ | _
  · rcases keeps_of_clean hi he hk hg with ⟨-, (hc | he) | ⟨x, hx⟩⟩
    · exact Or.inl (List.mem_cons_of_mem _ (mem_shapedNames_of_contains hc hg))
    · exact Or.inl (List.mem_cons.2 (Or.inl he))
    · cases hx
  · exact Or.inr rfl

/-- Without an issue, the description is that of the merged body. -/
theorem description_of_clean : (∀ v, merged.get? descriptionKey = some v →
      v.untagged = .string q.description) ∧
    (merged.get? descriptionKey = none → q.description = "") := by
  constructor
  · intro v hv
    have hkeep := keeps_of_clean hi (Mapping.mem_of_get? hv) rfl (by decide)
    obtain ⟨read, hread, hr⟩ := holds_of_decode hn (n := "description") (by decide) hv h hkeep
    have hall : ∀ e ∈ q.decoded, e.1 = "description" → ∀ v, e.2 v →
        Reader.text v = .ok q.description := by
      simp only [Profile.decoded, List.forall_mem_cons]
      and_intros <;> first
        | exact fun _ v hv => hv
        | exact fun hname => absurd hname (by decide)
        | simp
    have htext := hall _ hread rfl v hr
    unfold Reader.text at htext
    split at htext
    · rename_i s hs
      rw [hs, Except.ok.inj htext]
    · cases htext
  · intro hnone
    obtain ⟨es, hes, -, hq, -⟩ := entries_of_decode hn h
    have hget : es.get? "description" = none := by
      rw [Option.eq_none_iff_forall_ne_some]
      intro v hv
      have hmerged := ((get?_of_keptEntries hn hes).1 hv).1
      rw [show Value.string "description" = descriptionKey from rfl, hnone] at hmerged
      cases hmerged
    rw [hq]
    show es.read "description" Reader.text "" = ""
    rw [Entries.read, hget]

end Clean

section Summaries

theorem mem_sections_summaryOf : n ∈ (Config.summaryOf body).sections ↔
    ∃ key m, (key, .mapping m) ∈ body ∧ key.keyText = some n := by
  rw [Config.summaryOf, List.mem_mergeSort, List.mem_filterMap]
  constructor
  · rintro ⟨⟨key, v⟩, he, hk⟩
    cases v with
    | mapping m => exact ⟨key, m, he, hk⟩
    | _ => cases hk
  · rintro ⟨key, m, he, hk⟩
    exact ⟨_, he, hk⟩

/-- The description of a summary is the last of the texts that stand as one, and there is one at
most. -/
theorem exists_descriptions (hn : body.keys.Nodup) : ∃ texts : List String,
    (Config.summaryOf body).description = texts.getLast?.getD "" ∧
      ∀ s, s ∈ texts ↔ body.get? descriptionKey = some (.string s) := by
  refine ⟨_, rfl, fun s => ?_⟩
  rw [descriptionKey, Mapping.get?_eq_some_iff hn, List.mem_filterMap]
  constructor
  · rintro ⟨⟨key, v⟩, he, hs⟩
    cases v with
    | string other =>
      simp only [Option.ite_none_right_eq_some, Option.some.injEq] at hs
      obtain ⟨hk, rfl⟩ := hs
      rwa [Value.eq_string_of_keyText hk (by decide)] at he
    | _ => cases hs
  · exact fun he => ⟨_, he, by simp [Value.keyText]⟩

theorem description_of_string (hn : body.keys.Nodup) {t : String}
    (h : body.get? descriptionKey = some (.string t)) :
    (Config.summaryOf body).description = t := by
  obtain ⟨texts, hdescription, hmem⟩ := exists_descriptions hn
  rw [hdescription]
  rcases hl : texts.getLast? with _ | s
  · rw [List.getLast?_eq_none_iff.1 hl] at hmem
    exact absurd ((hmem t).2 h) List.not_mem_nil
  · have hs := (hmem s).1 (List.mem_of_getLast? hl)
    rw [h] at hs
    exact (Value.string.inj (Option.some.inj hs)).symm

theorem description_of_not_string (hn : body.keys.Nodup)
    (h : ∀ t, body.get? descriptionKey ≠ some (.string t)) :
    (Config.summaryOf body).description = "" := by
  obtain ⟨texts, hdescription, hmem⟩ := exists_descriptions hn
  rw [hdescription]
  rcases hl : texts.getLast? with _ | s
  · rfl
  · exact absurd ((hmem s).1 (List.mem_of_getLast? hl)) (h s)

/-- The sections of a summary are in order where they have names of their own. -/
theorem ascending_sections (hn : body.keys.Nodup)
    (h : ∀ key m, (key, .mapping m) ∈ body → ∀ n, key.keyText = some n → key = .string n) :
    (Config.summaryOf body).sections.Pairwise (· < ·) := by
  refine Table.ascending_mergeSort ?_
  rw [List.Nodup, List.pairwise_filterMap]
  rw [Mapping.keys, List.Nodup, List.pairwise_map] at hn
  refine hn.imp_of_mem fun {e other} he ho hne s hs t ht hst => hne ?_
  obtain ⟨key, v⟩ := e
  obtain ⟨key', v'⟩ := other
  cases v with
  | mapping m =>
    cases v' with
    | mapping m' => rw [h key m he s hs, h key' m' ho t ht, hst]
    | _ => cases ht
  | _ => cases hs

end Summaries

/-- How the summary of a profile and what it is resolved to agree. -/
structure Listed (body : Mapping) (summary : ProfileSummary) (p : Profile) : Prop where
  /-- The sections listed are those defined with a map, and the environment. -/
  sections : ∀ n, n ∈ summary.sections ↔ (n ∈ p.definedSections ∨ n = "env") ∧
    ∃ m, body.get? (.string n) = some (.mapping m)
  /-- A section that is not listed is null if it is generic, and has a tag if it has a shape. -/
  unlisted : ∀ n, n ∈ p.definedSections → n ∉ summary.sections →
    (CommandTable.builtin.isGeneric n = true ∧ body.get? (.string n) = some .null) ∨
    (n ∈ shapedNames ∧ ∃ tag content, body.get? (.string n) = some (.tagged tag content))
  /-- So both lists are equal where no environment is a map and every section is. -/
  same : summary.sections = p.definedSections ↔
    (∀ m, body.get? (.string "env") ≠ some (.mapping m)) ∧
      ∀ n, n ∈ p.definedSections → ∃ m, body.get? (.string n) = some (.mapping m)
  /-- The description is the same, -/
  described : (∀ tag content, body.get? descriptionKey ≠ some (.tagged tag content)) →
    summary.description = p.description
  /-- unless it has a tag: then none is listed. -/
  undescribed : ∀ tag content, body.get? descriptionKey = some (.tagged tag content) →
    summary.description = "" ∧ content.untagged = .string p.description

section Agreement

variable (ht : (Value.mapping body).Tidy)
  (h : (decode .builtin name (Mapping.overlay [] body)).result = .ok q)
  (hi : (decode .builtin name (Mapping.overlay [] body)).issues = [])

include ht h hi

/-- A map of the body is a section that is defined, or the environment. -/
theorem mapping_of_clean (he : (key, .mapping m) ∈ body) (hk : key.keyText = some n) :
    key = .string n ∧ (n ∈ q.definedSections ∨ n = "env") := by
  have hn := Mapping.nodup_overlay_nil body
  rcases Mapping.get?_overlay_of_mapping ht.distinct he with
    ⟨base, items, inner, hlist, hmem⟩ | ⟨inner, hget⟩
  · exact absurd hmem (mapping_notMem_of_clean hn h hi hlist)
  obtain ⟨k, hsame, hmem⟩ := Mapping.exists_of_get? hget
  obtain ⟨s, hs⟩ := Value.exists_keyText_of_sameKey hsame hk
  rcases name_of_clean hi hmem hs with hname | hgeneric
  · obtain rfl := Value.eq_string_of_keyText hs (isGeneric_of_mem_shapedNames hname).2
    obtain rfl := Value.string_sameKey.1 hsame
    obtain rfl := Option.some.inj hk
    refine ⟨rfl, (List.mem_cons.1 hname).symm.imp_left fun hshaped => ?_⟩
    exact (mem_definedSections_of_clean hn h hi).2 ⟨_, hget, Or.inl ⟨hshaped, by simp⟩⟩
  · obtain rfl := Value.eq_string_of_generic hs (CommandTable.isGeneric_builtin.1 hgeneric)
    obtain rfl := Value.string_sameKey.1 hsame
    obtain rfl := Option.some.inj hk
    exact ⟨rfl, Or.inl ((mem_definedSections_of_clean hn h hi).2 ⟨_, hget, Or.inr hgeneric⟩)⟩

/-- What the body has for a section that is defined. -/
theorem value_of_clean (hs : n ∈ q.definedSections) :
    (∃ m, body.get? (.string n) = some (.mapping m)) ∨
    (CommandTable.builtin.isGeneric n = true ∧ body.get? (.string n) = some .null) ∨
    (n ∈ shapedNames ∧ ∃ tag content, body.get? (.string n) = some (.tagged tag content)) := by
  have hn := Mapping.nodup_overlay_nil body
  obtain ⟨v, hv, hname⟩ := (mem_definedSections_of_clean hn h hi).1 hs
  have hform : v.untagged = .null ∨ ∃ m, v.untagged = .mapping m := by
    rcases hname with ⟨hshaped, -⟩ | hgeneric
    · exact (shaped_of_clean hn h hi (List.mem_cons_of_mem _ hshaped) hv).1
    · obtain ⟨rfl | ⟨m, rfl⟩, -⟩ := generic_of_clean hn h hi hgeneric hv
      · exact Or.inl rfl
      · exact Or.inr ⟨m, rfl⟩
  have hlist : v.kind ≠ .list := fun hk => by
    cases v with
    | list items => simp [Value.untagged] at hform
    | _ => cases hk
  obtain ⟨w, hw, hvw⟩ := Mapping.get?_overlay_nil ht.distinct hv hlist
  rcases Mapping.overlayValue_none_cases w with hsame | ⟨m, inner, rfl, -⟩
  · obtain rfl : v = w := hvw.trans hsame
    cases v with
    | null =>
      refine Or.inr (Or.inl ⟨?_, hw⟩)
      exact hname.resolve_left fun hshaped => hshaped.2 rfl
    | mapping m => exact Or.inl ⟨m, hw⟩
    | tagged tag content =>
      refine Or.inr (Or.inr ⟨?_, tag, content, hw⟩)
      refine (hname.resolve_right fun hgeneric => ?_).1
      have hplain := (generic_of_clean hn h hi hgeneric hv).1
      simp at hplain
    | _ => simp [Value.untagged] at hform
  · exact Or.inl ⟨m, hw⟩

theorem listed_sections : n ∈ (Config.summaryOf body).sections ↔
    (n ∈ q.definedSections ∨ n = "env") ∧ ∃ m, body.get? (.string n) = some (.mapping m) := by
  rw [mem_sections_summaryOf]
  constructor
  · rintro ⟨key, m, he, hk⟩
    obtain ⟨rfl, hs⟩ := mapping_of_clean ht h hi he hk
    exact ⟨hs, m, (Mapping.get?_eq_some_iff ht.nodup).2 he⟩
  · rintro ⟨-, m, hm⟩
    exact ⟨_, m, Mapping.mem_of_get? hm, rfl⟩

theorem listed_same : (Config.summaryOf body).sections = q.definedSections ↔
    (∀ m, body.get? (.string "env") ≠ some (.mapping m)) ∧
      ∀ n, n ∈ q.definedSections → ∃ m, body.get? (.string n) = some (.mapping m) := by
  have hn := Mapping.nodup_overlay_nil body
  have henv : "env" ∉ q.definedSections := fun hs => by
    obtain ⟨v, -, ⟨hname, -⟩ | hgeneric⟩ := (mem_definedSections_of_clean hn h hi).1 hs
    · exact absurd hname (by decide)
    · exact absurd hgeneric (by decide)
  have hlisted := fun n => listed_sections (n := n) ht h hi
  constructor
  · intro heq
    rw [heq] at hlisted
    refine ⟨fun m hm => henv ((hlisted "env").2 ⟨Or.inr rfl, m, hm⟩), fun n hs => ?_⟩
    exact ((hlisted n).1 hs).2
  · rintro ⟨hno, hall⟩
    refine Table.ascending_ext ?_ ?_ fun n => ?_
    · exact ascending_sections ht.nodup fun key m he n hk => (mapping_of_clean ht h hi he hk).1
    · exact sorted_of_decode hn h
    · rw [hlisted]
      constructor
      · rintro ⟨hs | rfl, m, hm⟩
        · exact hs
        · exact absurd hm (hno m)
      · exact fun hs => ⟨Or.inl hs, hall n hs⟩

theorem listed_description :
    ((∀ tag content, body.get? descriptionKey ≠ some (.tagged tag content)) →
      (Config.summaryOf body).description = q.description) ∧
    ∀ tag content, body.get? descriptionKey = some (.tagged tag content) →
      (Config.summaryOf body).description = "" ∧ content.untagged = .string q.description := by
  have hn := Mapping.nodup_overlay_nil body
  obtain ⟨hsome, hnone⟩ := description_of_clean hn h hi
  -- the merged body has the value of the body, if there is one
  have hvalue : (Mapping.overlay [] body).get? descriptionKey = body.get? descriptionKey := by
    rcases hv : (Mapping.overlay [] body).get? descriptionKey with _ | v
    · exact (Mapping.get?_of_overlay_nil ht.distinct (by decide) hv).symm
    · have htext := hsome v hv
      have hlist : v.kind ≠ .list := fun hk => by
        cases v with
        | list items => cases htext
        | _ => cases hk
      obtain ⟨w, hw, hvw⟩ := Mapping.get?_overlay_nil ht.distinct hv hlist
      rcases Mapping.overlayValue_none_cases w with hsame | ⟨m, inner, rfl, hinner⟩
      · rw [hvw, hsame]
        exact hw.symm
      · rw [hvw, hinner] at htext
        cases htext
  rw [hvalue] at hsome hnone
  refine ⟨fun htag => ?_, fun tag content hv => ⟨?_, ?_⟩⟩
  · rcases hv : body.get? descriptionKey with _ | v
    · rw [hnone hv]
      exact description_of_not_string ht.nodup (by simp [hv])
    · have htext := hsome v hv
      cases v with
      | string t =>
        rw [← Value.string.inj htext]
        exact description_of_string ht.nodup hv
      | tagged tag content => exact absurd hv (htag tag content)
      | _ => cases htext
  · exact description_of_not_string ht.nodup (by simp [hv])
  · have htext := hsome _ hv
    rwa [Value.untagged] at htext

/-- What the first body of a chain is read to, against its summary, anchored or not. -/
theorem listed_of_decode (f : Anchoring) (find : String → List String) :
    Listed body (Config.summaryOf body) ((q.anchorWith f).expandSources find) := by
  have hdescription := listed_description ht h hi
  constructor
  case sections =>
    rw [Profile.definedSections_anchored]
    exact fun n => listed_sections ht h hi
  case unlisted =>
    rw [Profile.definedSections_anchored]
    intro n hs hno
    rcases value_of_clean ht h hi hs with hm | hother
    · exact absurd ((listed_sections ht h hi).2 ⟨Or.inl hs, hm⟩) hno
    · exact hother
  case same =>
    rw [Profile.definedSections_anchored]
    exact listed_same ht h hi
  case described => exact hdescription.1
  case undescribed => exact hdescription.2

end Agreement

namespace Config

variable {s : Surroundings}

theorem get?_profileSummaries (c : Config) (name : String) :
    c.profileSummaries.get? name = if name ∈ c.profileNames then
      some (summaryOf ((c.profileValue? name).elim [] Value.mappingEntries)) else none := by
  have hnull : summaryOf [] = ⟨"", []⟩ := by simp [summaryOf]
  rw [profileSummaries, ← Table.get?_ofList_map c.profileNames fun n =>
    summaryOf ((c.profileValue? n).elim [] Value.mappingEntries)]
  refine congrArg (fun l => (Table.ofList l).get? name) (List.map_congr_left fun n _ => ?_)
  rcases c.profileValue? n with _ | v
  · rw [Option.elim_none, hnull]
  · cases v with
    | mapping m => rfl
    | _ => exact congrArg _ hnull.symm

/-- A listed profile that names no parent and is resolved without an issue: its summary agrees with
it but for the environment, for null and for tags. -/
theorem summary_of_resolve {format : Format} {text file : String} {d : Document}
    (hd : Document.parse format text = .ok d) (hl : name ∈ (ofDocument d file).profileNames)
    (hv : (ofDocument d file).profileValue? name = some v) (hb : bodyOf name v = .ok body)
    (hparent : parentName? body = none)
    (hp : ((ofDocument d file).resolve s name).result = .ok p)
    (hi : ((ofDocument d file).resolve s name).issues = []) :
    ∃ summary, (ofDocument d file).profileSummaries.get? name = some summary ∧
      Listed body summary p := by
  have hbody : v.mappingEntries = body := by
    cases v with
    | mapping m => exact Except.ok.inj hb
    | null => exact Except.ok.inj hb
    | _ => cases hb
  have hancestry : ancestry (ofDocument d file).profiles name = .ok [⟨name, body⟩] := by
    rw [profileValue?_eq] at hv
    exact ancestryFrom_last (by simp) hv hb hparent
  have hmerged : mergedBody (ofDocument d file).profiles name = .ok (Mapping.overlay [] body) := by
    rw [mergedBody_of_ancestry hancestry]
    rfl
  have htidy : (Value.mapping body).Tidy :=
    tidy_of_ancestry (Document.distinct_of_parse hd) hancestry _ List.mem_cons_self
  refine ⟨summaryOf body, ?_, ?_⟩
  · rw [get?_profileSummaries, if_pos hl, hv, Option.elim_some, hbody]
  · obtain ⟨other, q, ho, hq, rfl⟩ := of_resolve hp
    obtain rfl := Except.ok.inj (hmerged.symm.trans ho)
    rw [resolve_of_mergedBody hmerged] at hi
    exact listed_of_decode htidy hq hi _ _

def furnishedText : String :=
  "\x7b\"a\":\x7b\"description\":\"d\",\"env\":\x7b\"A\":\"b\"\x7d," ++
    "\"backup\":\x7b\x7d,\"ls\":null\x7d\x7d"

def furnishedBody : Mapping := [
  (.string "description", .string "d"),
  (.string "env", .mapping [(.string "A", .string "b")]),
  (.string "backup", .mapping []),
  (.string "ls", .null)]

/-- A document whose profile has an environment, a section and a section that is null. -/
def furnished : Document := ⟨[(.string "a", .mapping furnishedBody)]⟩

theorem parse_furnished : Document.parse .json furnishedText = .ok furnished :=
  toOption_eq_some.1 (by decide +kernel)

theorem mem_profileNames_furnished : "a" ∈ (ofDocument furnished "").profileNames :=
  mem_profileNames.2 ⟨Or.inl (by decide), fun _ => by decide⟩

theorem profileValue?_furnished :
    (ofDocument furnished "").profileValue? "a" = some (.mapping furnishedBody) := by decide

theorem mergedBody_furnished : mergedBody (ofDocument furnished "").profiles "a" =
    .ok furnishedBody := by
  have hroot : (ofDocument furnished "").profiles = furnished.root := by decide
  rw [hroot, mergedBody, ancestry, ancestryFrom_last (by decide) rfl rfl (by decide)]
  exact toOption_eq_some.1 (by decide +kernel)

theorem resolve_furnished : ∃ p, ((ofDocument furnished "").resolve default "a").result = .ok p ∧
    ((ofDocument furnished "").resolve default "a").issues = [] ∧
    p.generic.get? "env" = none ∧ p.generic.get? "ls" = some (some .empty) := by
  rw [resolve, mergedBody_furnished]
  exact ⟨_, rfl, rfl, rfl, rfl⟩

theorem summary_of_resolve_furnished : Document.parse .json furnishedText = .ok furnished ∧
    ∃ p summary, ((ofDocument furnished "").resolve default "a").result = .ok p ∧
      (ofDocument furnished "").profileSummaries.get? "a" = some summary ∧
      Listed furnishedBody summary p := by
  obtain ⟨p, hp, hi, -⟩ := resolve_furnished
  obtain ⟨summary, hsummary, hlisted⟩ := summary_of_resolve parse_furnished
    mem_profileNames_furnished profileValue?_furnished rfl (by decide) hp hi
  exact ⟨parse_furnished, p, summary, hp, hsummary, hlisted⟩

/-- The environment is listed as a section, and a section that is null is defined and not listed. -/
theorem sections_misjudged : Document.parse .json furnishedText = .ok furnished ∧
    "a" ∈ (ofDocument furnished "").profileNames ∧
    (ofDocument furnished "").profileValue? "a" = some (.mapping furnishedBody) ∧
    parentName? furnishedBody = none ∧
    ∃ p summary, ((ofDocument furnished "").resolve default "a").result = .ok p ∧
      ((ofDocument furnished "").resolve default "a").issues = [] ∧
      (ofDocument furnished "").profileSummaries.get? "a" = some summary ∧
      "env" ∈ summary.sections ∧ "env" ∉ p.definedSections ∧
      "ls" ∈ p.definedSections ∧ "ls" ∉ summary.sections := by
  obtain ⟨p, hp, hi, henv, hls⟩ := resolve_furnished
  have hdefined := Profile.mem_definedSections.2 (Or.inr ⟨_, hls⟩)
  refine ⟨parse_furnished, mem_profileNames_furnished, profileValue?_furnished, by decide, p,
    summaryOf furnishedBody, hp, hi, ?_, ?_, ?_, hdefined, ?_⟩
  · rw [get?_profileSummaries, if_pos mem_profileNames_furnished, profileValue?_furnished]
    rfl
  · exact mem_sections_summaryOf.2 ⟨.string "env", [(.string "A", .string "b")], by decide, rfl⟩
  · rw [Profile.mem_definedSections, henv]
    rintro (hs | ⟨g, hg⟩)
    · exact absurd (p.mem_shapedNames hs) (by decide)
    · cases hg
  · intro h
    obtain ⟨key, m, he, hk⟩ := mem_sections_summaryOf.1 h
    obtain rfl := Value.eq_string_of_generic hk (by decide)
    have hget : furnishedBody.get? (.string "ls") = some (.mapping m) :=
      (Mapping.get?_eq_some_iff (by decide)).2 he
    cases hget

end Config

end BackupProfiles
