import BackupProfiles.Proofs.Flags.Derivation
import BackupProfiles.Proofs.Merge.Markerless
import BackupProfiles.Proofs.Profile.Options

/-!
# Markers among the names of flags

The flags of a profile and of its sections have names from the keys of the merged body and of the
mappings in it, and a marker is such a key only as the base of a marker in a layer. Reading a
section looks behind tags while merging does not, so a name can also come from a key with a tag, or
from a section with one (`Value.TagsName`). Other than that, a flag with the name of a marker is the
base of a marker (`Config.markers_of_resolve`).
-/

namespace BackupProfiles

/-- The value has a tag, or a key with a tag that is read as a name. -/
def Value.TagsName (v : Value) (n : String) : Prop :=
  (∃ tag content, v = .tagged tag content) ∨
    ∃ tag content, .tagged tag content ∈ v.mappingEntries.keys ∧ content.untagged = .string n

/-- A name is read from a key of the mapping in a value. -/
def Value.ReadsName (v : Value) (n : String) : Prop :=
  ∃ m : Mapping, v.untagged = .mapping m ∧ ∃ key ∈ m.keys, key.untagged = .string n

variable {body : Mapping} {es : Entries} {q : Profile} {name n sec : String} {v : Value}

theorem Value.ReadsName.cases (h : v.ReadsName n) :
    v.TagsName n ∨ .string n ∈ v.mappingEntries.keys := by
  obtain ⟨m, hm, key, hk, hn⟩ := h
  cases v with
  | tagged tag content => exact Or.inl (Or.inl ⟨tag, content, rfl⟩)
  | mapping entries =>
    obtain rfl : entries = m := by simpa [untagged] using hm
    cases key with
    | tagged tag content => exact Or.inl (Or.inr ⟨tag, content, hk, by rwa [untagged] at hn⟩)
    | string s =>
      obtain rfl : s = n := by simpa [untagged] using hn
      exact Or.inr hk
    | _ => cases hn
  | _ => cases hm

theorem Entries.readsName_of_mem {m : Mapping} {w : Value} (hv : v.untagged = .mapping m)
    (h : (n, w) ∈ ofMapping m) : v.ReadsName n := by
  obtain ⟨⟨key, value⟩, he, hn⟩ := List.mem_filterMap.1 h
  refine ⟨m, hv, key, Mapping.mem_keys he, ?_⟩
  dsimp only at hn
  split at hn
  · rename_i s hs
    obtain ⟨rfl, -⟩ := Prod.mk.inj (Option.some.inj hn)
    exact hs
  · cases hn

/-- The flags of a section have names that are read from its value. -/
theorem Shape.readsName_of_readOpen {σ : Type} {s : Shape} {build : Entries → σ} {a : σ}
    (h : s.readOpen build v = .ok a) :
    ∃ es, a = build es ∧ ∀ n x, (s.flags es).get? n = some x → v.ReadsName n := by
  unfold readOpen at h
  split at h
  · rename_i m hm
    split at h
    · cases h
    · refine ⟨_, (Except.ok.inj h).symm, fun n x hx => ?_⟩
      obtain ⟨-, w, hw, -⟩ := mem_of_get?_flags hx
      exact Entries.readsName_of_mem hm hw
  · refine ⟨_, (Except.ok.inj h).symm, fun n x hx => ?_⟩
    obtain ⟨-, w, hw, -⟩ := mem_of_get?_flags hx
    cases hw
  · cases h

/-- A generic section is read from the value of the text that is its name. -/
theorem get?_of_genericEntries (hn : body.keys.Nodup)
    (h : (genericEntries .builtin body).get? sec = some v) : body.get? (.string sec) = some v := by
  rw [genericEntries, Table.get?_ofList] at h
  obtain ⟨⟨key, w⟩, he, hrole⟩ := List.mem_filterMap.1 (List.mem_reverse.1 (mem_of_entryFor? h))
  dsimp only at hrole
  split at hrole
  · rename_i m hm
    obtain ⟨rfl, rfl⟩ := Prod.mk.inj (Option.some.inj hrole)
    obtain ⟨hk, hg⟩ := EntryRole.of_eq_generic.1 hm
    have hkey : key = .string _ :=
      Value.eq_string_of_generic hk (CommandTable.isGeneric_builtin.1 hg)
    exact (Mapping.get?_eq_some_iff hn).2 (hkey ▸ he)
  · cases hrole

/-- The flags of a section of a profile have names that are read from its value in the body. -/
theorem readsName_of_sectionFlags? (hn : body.keys.Nodup)
    (h : (decode .builtin name body).result = .ok q) {flags : Table FlagValue} {x : FlagValue}
    (hs : q.sectionFlags? sec = some flags) (hx : flags.get? n = some x) :
    ∃ v, body.get? (.string sec) = some v ∧ v.ReadsName n := by
  obtain ⟨es, hes, -, rfl, -⟩ := entries_of_decode hn h
  have hfield : ∀ {σ : Type} {s : Shape} {build : Entries → σ} {a : σ} {sec : String},
      es.read sec (Reader.optional (s.readOpen build)) none = some a →
      ∃ v es', body.get? (.string sec) = some v ∧ a = build es' ∧
        ∀ n x, (s.flags es').get? n = some x → v.ReadsName n := by
    intro σ s build a sec hread
    obtain ⟨v, hv, hr⟩ := Entries.get?_of_read hread
    obtain ⟨es', ha, hnames⟩ := Shape.readsName_of_readOpen (Reader.of_optional hr)
    exact ⟨v, es', ((get?_of_keptEntries hn hes).1 hv).1, ha, hnames⟩
  unfold Profile.sectionFlags? at hs
  split at hs <;> obtain ⟨a, ha, rfl⟩ := Option.map_eq_some_iff.1 hs
  case h_8 =>
    have hread : (genericSections body).get? sec = some (some a) := Option.join_eq_some_iff.1 ha
    rw [genericSections, Table.get?_ofList_map] at hread
    split at hread
    · obtain ⟨v, hv, hr⟩ := Option.bind_eq_some_iff.1 (Option.some.inj hread)
      obtain ⟨es', rfl, hnames⟩ :=
        Shape.readsName_of_readOpen (read_of_readGeneric (toOption_eq_some.1 hr))
      exact ⟨v, get?_of_genericEntries hn hv, hnames n x hx⟩
    · cases hread
  all_goals
    obtain ⟨v, es', hv, rfl, hnames⟩ := hfield ha
    exact ⟨v, hv, hnames n x hx⟩

/-- A marker in a section of the layers has this name for its base, or the name stands behind a tag
in the section. -/
def FromSection (layers : List Layer) (merged : Mapping) (sec n : String) : Prop :=
  Marked layers [.string sec] (.string n) ∨
    ∃ v, merged.get? (.string sec) = some v ∧ v.TagsName n

namespace Config

variable {d : Document} {file : String} {layers : List Layer} {s : Surroundings} {p : Profile}

section Names

variable (hd : d.Distinct) (ha : ancestry (ofDocument d file).profiles name = .ok layers)
  (hp : ((ofDocument d file).resolve s name).result = .ok p) (hm : Marker.ofText? n ≠ none)
include hd ha hp hm

/-- A flag of a profile with the name of a marker. -/
theorem marked_of_get?_flags (hn : p.flags.get? n ≠ none) : Marked layers [] (.string n) := by
  obtain ⟨x, hx⟩ := Option.ne_none_iff_exists'.1 hn
  obtain ⟨-, v, hv, -⟩ := (get?_flags_of_resolve rfl (mergedBody_of_ancestry ha) hp).1 hx
  exact marked_of_mem_mergeLayers (tidy_of_ancestry hd ha) hm
    (Mapping.mem_keys (Mapping.mem_of_get? hv))

/-- A flag of a section with the name of a marker. -/
theorem fromSection_of_sectionFlags? {flags : Table FlagValue}
    (hs : p.sectionFlags? sec = some flags) (hn : flags.get? n ≠ none) :
    FromSection layers (mergeLayers layers) sec n := by
  obtain ⟨body, q, hbody, hq, rfl⟩ := of_resolve hp
  obtain rfl : mergeLayers layers = body :=
    Except.ok.inj ((mergedBody_of_ancestry ha).symm.trans hbody)
  rw [Profile.anchor, sectionFlags?_anchored] at hs
  obtain ⟨read, hread, rfl⟩ := Option.map_eq_some_iff.1 hs
  rw [anchorFlags_eq, Table.get?_mapEntries, ne_eq, Option.map_eq_none_iff] at hn
  obtain ⟨x, hx⟩ := Option.ne_none_iff_exists'.1 hn
  obtain ⟨v, hv, hname⟩ := readsName_of_sectionFlags? (tidy_mergedBody hbody).nodup hq hread hx
  refine hname.cases.symm.imp (fun hkey => ?_) fun htag => ⟨v, hv, htag⟩
  rw [← Mapping.within_singleton hv] at hkey
  exact marked_of_mem_mergeLayers (tidy_of_ancestry hd ha) hm hkey

/-- A derived flag with the name of a marker. -/
theorem origin_of_marker {s' : Surroundings} {rt : Runtime} {what : Derivation} {f : Flags}
    (ht : rt.table = .builtin) (hf : p.derive? s' rt what = some f) (hn : f.get? n ≠ none) :
    Marked layers [] (.string n) ∨
      FromSection layers (mergeLayers layers) what.sectionName n := by
  have hfields : ∀ m ∈ Derivation.fieldNames, Marker.ofText? m = none := by decide
  have hcommon : ∀ m ∈ p.commonSettings.map (·.1), Marker.ofText? m = none := by
    rw [Profile.names_commonSettings]
    decide
  rcases Profile.origin_of_derive? ht (fun h => hm (hfields n h)) (fun h => hm (hcommon n h)) hf hn
    with hflags | ⟨flags, hs, hflags⟩
  · exact Or.inl (marked_of_get?_flags hd ha hp hm hflags)
  · exact Or.inr (fromSection_of_sectionFlags? hd ha hp hm hs hflags)

end Names

/-- Where markers among the keys of a merged body and among the names of flags are from. As a key of
the body, or of a mapping in it, a marker is the base of a marker that a layer has in the mapping at
the same path. So is it as the name of a flag of the profile, and as the name of a derived flag,
unless that is read behind a tag in a section. -/
theorem markers_of_resolve (hd : d.Distinct)
    (ha : ancestry (ofDocument d file).profiles name = .ok layers) :
    ∃ merged, mergedBody (ofDocument d file).profiles name = .ok merged ∧
      (∀ path key, key ∈ (merged.within path).keys → Marker.ofKey? key ≠ none →
        Marked layers path key) ∧
      ∀ s p, ((ofDocument d file).resolve s name).result = .ok p →
        ∀ n, Marker.ofText? n ≠ none →
          (p.flags.get? n ≠ none → Marked layers [] (.string n)) ∧
          ∀ s' host? version? what f,
            p.derive? s' ((ofDocument d file).runtimeIn host? version?) what = some f →
              f.get? n ≠ none →
                Marked layers [] (.string n) ∨ FromSection layers merged what.sectionName n :=
  ⟨_, mergedBody_of_ancestry ha,
    fun _ _ hkey hk => marked_of_mem_mergeLayers (tidy_of_ancestry hd ha) hk hkey,
    fun _ _ hp _ hm => ⟨marked_of_get?_flags hd ha hp hm,
      fun _ _ _ _ _ hf hn => origin_of_marker hd ha hp hm rfl hf hn⟩⟩

def remarkedText : String := "a:\n  a......: x\n  backup: !t\n    b...: y\n"

def remarkedBody : Mapping := [
  (.string "a......", .string "x"),
  (.string "backup", .tagged "!t" (.mapping [(.string "b...", .string "y")]))]

/-- A document whose profile has a marker for a marker, and one in a section with a tag. -/
def remarked : Document := ⟨[(.string "a", .mapping remarkedBody)]⟩

theorem parse_remarked : Document.parse .yaml remarkedText = .ok remarked :=
  toOption_eq_some.1 (by decide +kernel)

theorem ancestry_remarked :
    ancestry (ofDocument remarked "").profiles "a" = .ok [⟨"a", remarkedBody⟩] := by
  have hroot : (ofDocument remarked "").profiles = remarked.root := by decide
  rw [hroot, ancestry, ancestryFrom_last (by decide) rfl rfl (by decide)]

theorem resolve_remarked : ∃ p, ((ofDocument remarked "").resolve default "a").result = .ok p ∧
    p.flags.get? "a..." ≠ none ∧ p.commonFlags.get? "a..." = some ["x"] ∧
    (p.commandFlags default (ofDocument remarked "").runtime "backup").get? "b..." =
      some ["y"] := by
  rw [resolve_of_mergedBody (mergedBody_of_ancestry ancestry_remarked)]
  exact ⟨_, rfl, by decide, by decide, by decide⟩

/-- The name in the section is from behind its tag, as no layer has a marker for it. -/
theorem markers_of_resolve_remarked : remarked.Distinct ∧
    ancestry (ofDocument remarked "").profiles "a" = .ok [⟨"a", remarkedBody⟩] ∧
    ∃ merged, mergedBody (ofDocument remarked "").profiles "a" = .ok merged ∧
      Marked [⟨"a", remarkedBody⟩] [] (.string "a...") ∧
      ∃ v, merged.get? (.string "backup") = some v ∧ v.TagsName "b..." := by
  have hd := Document.distinct_of_parse parse_remarked
  obtain ⟨merged, hbody, -, hnames⟩ := markers_of_resolve hd ancestry_remarked
  obtain ⟨p, hp, hflags, -, hbackup⟩ := resolve_remarked
  have hsection := (hnames default p hp "b..." (by decide)).2 default none none
    (.command "backup") _ rfl (Option.ne_none_iff_exists'.2 ⟨_, hbackup⟩)
  refine ⟨hd, ancestry_remarked, merged, hbody, (hnames default p hp "a..." (by decide)).1 hflags, ?_⟩
  exact (hsection.resolve_left (by decide)).resolve_left (by decide)

/-- A marker comes through as a key of the merged body and as a flag, and another as a flag. -/
theorem markers_kept : Document.parse .yaml remarkedText = .ok remarked ∧
    Marker.ofText? "a..." = some ⟨"a", .back⟩ ∧ Marker.ofText? "b..." = some ⟨"b", .back⟩ ∧
    (∃ merged, mergedBody (ofDocument remarked "").profiles "a" = .ok merged ∧
      .string "a..." ∈ merged.keys) ∧
    ∃ p, ((ofDocument remarked "").resolve default "a").result = .ok p ∧
      p.commonFlags.get? "a..." = some ["x"] ∧
      (p.commandFlags default (ofDocument remarked "").runtime "backup").get? "b..." =
        some ["y"] := by
  obtain ⟨p, hp, -, hflags, hbackup⟩ := resolve_remarked
  exact ⟨parse_remarked, by decide, by decide,
    ⟨_, mergedBody_of_ancestry ancestry_remarked, by decide⟩, p, hp, hflags, hbackup⟩

end Config

end BackupProfiles
