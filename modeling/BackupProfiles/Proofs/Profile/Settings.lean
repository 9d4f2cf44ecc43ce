import BackupProfiles.Proofs.Profile.Resolved
import BackupProfiles.Proofs.Value.KeyText

/-!
# Settings of a profile

Reading a body fails exactly where an entry that is kept cannot be read (`decode_fails_iff`). A
setting of a profile whose value cannot be decoded therefore makes resolving fail, but for one sort
of value: a map, or a list with maps or lists in it, is refused like a flag of that form wherever it
does not stand for a section or the environment. The profile is then resolved as if the setting was
not there, with an issue (`Config.setting_of_resolve`).
-/

namespace BackupProfiles

variable {body : Mapping} {v : Value} {n name : String}

/-- Whether an entry of a body can be read. -/
def Readable (e : Value × Value) : Prop :=
  ∃ n, e.1 = .string n ∧ Profile.shape.Accepts n e.2

/-- Reading a body fails where an entry that is kept cannot be read. -/
theorem decode_fails_iff (hn : body.keys.Nodup) (name : String) :
    (∃ f, (decode .builtin name body).result = .error f) ↔
      ∃ e ∈ keptEntries .builtin body, ¬ Readable e := by
  rcases hr : Profile.readBody (.mapping (keptEntries .builtin body)) with f | p
  · rw [decode_of_fault hr]
    refine ⟨fun _ => ?_, fun _ => ⟨f, rfl⟩⟩
    by_contra hall
    simp only [not_exists, not_and, not_not] at hall
    have hes : (Entries.ofMapping (keptEntries .builtin body)).toMapping =
        keptEntries .builtin body :=
      Entries.map_ofMapping_of_texts fun e he => (hall e he).imp fun _ h => h.1
    rw [readBody_of_entries hn hes.symm] at hr
    · cases hr
    · intro e he
      have hkept : (.string e.1, e.2) ∈ keptEntries .builtin body := by
        rw [← hes]
        exact List.mem_map_of_mem he
      obtain ⟨m, hm, ha⟩ := hall _ hkept
      rwa [Value.string.inj hm]
  · obtain ⟨es, hes, -, ha⟩ := entries_of_readBody hn hr
    rw [decode_of_read CommandTable.nodup_genericNames_builtin hr]
    refine ⟨nofun, ?_⟩
    rintro ⟨e, he, hnot⟩
    rw [hes] at he
    obtain ⟨⟨m, w⟩, hmem, rfl⟩ := List.mem_map.1 he
    exact absurd ⟨m, rfl, ha _ hmem⟩ hnot

/-- Only sections of the table are read as generic ones. -/
theorem mem_issues_iff_mem_refusedEntries (hg : CommandTable.builtin.isGeneric n = false)
    (name : String) {issue : SectionIssue} : (n, issue) ∈ (decode .builtin name body).issues ↔
      (n, issue) ∈ refusedEntries .builtin body := by
  rcases hr : Profile.readBody (.mapping (keptEntries .builtin body)) with f | p
  · rw [decode_of_fault hr]
  · rw [decode_of_read CommandTable.nodup_genericNames_builtin hr, List.mem_append,
      mem_unreadEntries, ← CommandTable.isGeneric_builtin, hg]
    simp

/-- What is read from a body depends on the entries that are kept and on the generic ones. -/
theorem decode_result_congr {other : Mapping}
    (hk : keptEntries .builtin body = keptEntries .builtin other)
    (hg : genericEntries .builtin body = genericEntries .builtin other) (name : String) :
    (decode .builtin name body).result = (decode .builtin name other).result := by
  rcases hr : Profile.readBody (.mapping (keptEntries .builtin body)) with f | p
  · rw [decode_of_fault hr, decode_of_fault (hk ▸ hr)]
  · rw [decode_of_read CommandTable.nodup_genericNames_builtin hr,
      decode_of_read CommandTable.nodup_genericNames_builtin (hk ▸ hr), hg]

theorem keptEntries_without (table : CommandTable) (body : Mapping) (key : Value) :
    keptEntries table (body.without key) = (keptEntries table body).without key := by
  rw [keptEntries, keptEntries, Mapping.without, Mapping.without, List.filter_filter,
    List.filter_filter]
  exact List.filter_congr fun e _ => Bool.and_comm _ _

/-- A key that is none of a generic section does not count for these. -/
theorem genericEntries_without (hg : CommandTable.builtin.isGeneric n = false) (body : Mapping) :
    genericEntries .builtin (body.without (.string n)) = genericEntries .builtin body := by
  rw [genericEntries, genericEntries, Mapping.without_string, List.filterMap_filter]
  refine congrArg Table.ofList (List.filterMap_congr fun e _ => ?_)
  by_cases hk : e.1 = .string n
  · rcases EntryRole.of_string .builtin n e.2 with ⟨h, -⟩ | ⟨-, hr⟩ | ⟨why, -, hr⟩
    · rw [hg] at h
      cases h
    · simp [hk, hr]
    · simp [hk, hr]
  · simp [hk]

/-- A refused entry is left out. -/
theorem decode_result_without {why : FlagValue.Refusal} (hn : body.keys.Nodup)
    (hv : body.get? (.string n) = some v) (hw : Refuses .builtin n v why) (name : String) :
    (decode .builtin name (body.without (.string n))).result =
      (decode .builtin name body).result := by
  refine decode_result_congr ?_ (genericEntries_without hw.1 body) name
  rw [keptEntries_without]
  refine Mapping.filter_eq_self (Mapping.get?_string_eq_none_iff.2 fun hk => ?_)
  obtain ⟨⟨key, w⟩, he, rfl⟩ := List.mem_map.1 hk
  obtain ⟨he, hkeep⟩ := mem_keptEntries.1 he
  rw [(Mapping.get?_eq_some_iff hn).2 he, Option.some.injEq] at hv
  exact hkeep.not_refuses (hv ▸ hw)

namespace Profile

/-- Why a value cannot be decoded to a field of a profile. -/
def fieldFault? (n : String) (v : Value) : Option Fault :=
  (shape.own.lookup n).bind fun check => check v

theorem lookup_own_eq_none_iff : shape.own.lookup n = none ↔ n ∉ shape.fieldNames :=
  FieldChecks.lookup_eq_none_iff

/-- Fields are accepted where they can be decoded, with tags or without. -/
theorem accepts_iff_of_field (hn : n ∈ shape.fieldNames) :
    shape.Accepts n v ↔ fieldFault? n v = none := by
  rcases hl : shape.own.lookup n with _ | check
  · exact absurd hn (lookup_own_eq_none_iff.1 hl)
  · rw [fieldFault?, hl, Option.bind_some]
    constructor
    · intro ha
      exact ha.passes _ List.mem_cons_self check hl
    · intro hc
      refine ⟨?_, fun hnone => ?_, fun hno => absurd hn hno⟩
      · show ∀ g ∈ [shape.own], _
        rw [List.forall_mem_singleton]
        exact (FieldChecks.passes_of_lookup hl).2 hc
      · rw [hl] at hnone
        cases hnone

/-- A value that a field can be decoded from is never refused. -/
theorem keeps_of_fieldFault? (hn : n ∈ shape.fieldNames) (h : fieldFault? n v = none) :
    Keeps .builtin n v := by
  rw [← names_decoded (ofEntries [(n, v)]), List.mem_map] at hn
  obtain ⟨⟨m, read⟩, hread, rfl⟩ := hn
  have hsingle : ∀ k, Entries.get? [(m, v)] k = if m = k then some v else none := fun k => by
    rw [Entries.get?_eq, entryFor?_cons, entryFor?_nil]
  refine keeps_of_decoded _ _ hread v (decoded_ofEntries (fun k w check hw hc => ?_) _ hread v ?_)
  · rw [hsingle] at hw
    split at hw
    · rename_i hk
      rw [fieldFault?, hk, hc] at h
      rwa [← Option.some.inj hw]
    · cases hw
  · rw [hsingle, if_pos rfl]

end Profile

section Setting

variable (hnodup : body.keys.Nodup) (hn : n ∈ Profile.shape.fieldNames)
  (hv : body.get? (.string n) = some v)
include hnodup hn hv

/-- A setting that is kept fails where its field does. -/
theorem decode_fails_of_fieldFault? (hk : Keeps .builtin n v)
    (hfault : Profile.fieldFault? n v ≠ none) (name : String) :
    ∃ f, (decode .builtin name body).result = .error f := by
  have hmem := mem_keptEntries.2 ⟨(Mapping.get?_eq_some_iff hnodup).1 hv, hk⟩
  refine (decode_fails_iff hnodup name).2 ⟨_, hmem, ?_⟩
  rintro ⟨m, hm, ha⟩
  obtain rfl := Value.string.inj hm
  exact hfault ((Profile.accepts_iff_of_field hn).1 ha)

/-- A setting that is kept is held by the profile that is read. -/
theorem holds_of_decode {q : Profile} (h : (decode .builtin name body).result = .ok q)
    (hk : Keeps .builtin n v) : ∃ read, (n, read) ∈ q.decoded ∧ read v := by
  obtain ⟨es, hes, ha, hq, -⟩ := entries_of_decode hnodup h
  rw [← q.names_decoded, List.mem_map] at hn
  obtain ⟨⟨m, read⟩, hread, rfl⟩ := hn
  refine ⟨read, hread, ?_⟩
  rw [hq] at hread
  exact read_of_entries hnodup hes ha hread hv hk

/-- The name of a setting has an issue where its value is refused, and no other. -/
theorem mem_issues_of_setting (name : String) {issue : SectionIssue} :
    (n, issue) ∈ (decode .builtin name body).issues ↔
      ∃ why, Refuses .builtin n v why ∧ issue = .unusable why := by
  have hgeneric : CommandTable.builtin.isGeneric n = false := by
    rw [← Bool.not_eq_true]
    exact fun hg => CommandTable.notMem_fieldNames_of_isGeneric hg hn
  rw [mem_issues_iff_mem_refusedEntries hgeneric, mem_refusedEntries_iff]
  constructor
  · rintro ⟨key, w, why, he, hk, hw, rfl⟩
    obtain rfl := Value.eq_string_of_keyText hk hn
    rw [(Mapping.get?_eq_some_iff hnodup).2 he, Option.some.injEq] at hv
    exact ⟨why, hv ▸ hw, rfl⟩
  · rintro ⟨why, hw, rfl⟩
    exact ⟨_, v, why, (Mapping.get?_eq_some_iff hnodup).1 hv, rfl, hw, rfl⟩

end Setting

namespace Config

variable {d : Document} {file : String}

/-- What becomes of a setting in the merged body of a profile. If its value cannot be decoded to the
field, resolving fails, unless the value is refused. Values that can be decoded are held by every
profile that is resolved. There is an issue under the name of the setting exactly if its value is
refused; it is none that could be decoded then, and what is resolved comes out as if the setting was
not there. -/
theorem setting_of_resolve (hbody : mergedBody (ofDocument d file).profiles name = .ok body)
    (hn : n ∈ Profile.shape.fieldNames) (hv : body.get? (.string n) = some v) (s : Surroundings) :
    (Profile.fieldFault? n v ≠ none →
      (∃ f, ((ofDocument d file).resolve s name).result = .error (.unreadable name f)) ∨
        ∃ why, Refuses .builtin n v why) ∧
    (∀ p, ((ofDocument d file).resolve s name).result = .ok p → Profile.fieldFault? n v = none →
      ∃ q, (decode .builtin name body).result = .ok q ∧
        p = (q.anchor s.home? (ofDocument d file).rootFolder).expandSources (Glob.expand s) ∧
        ∃ read, (n, read) ∈ q.decoded ∧ read v) ∧
    (∀ issue, (n, issue) ∈ ((ofDocument d file).resolve s name).issues ↔
      ∃ why, Refuses .builtin n v why ∧ issue = .unusable why) ∧
    ∀ why, Refuses .builtin n v why → Profile.fieldFault? n v ≠ none ∧
      (decode .builtin name (body.without (.string n))).result =
        (decode .builtin name body).result := by
  have hnodup := (tidy_mergedBody hbody).nodup
  rw [resolve_of_mergedBody hbody]
  refine ⟨fun hfault => ?_, fun p hp hfault => ?_, fun issue => ?_, fun why hw => ⟨?_, ?_⟩⟩
  · rcases EntryRole.cases .builtin n v with hg | hk | hw
    · exact absurd hn (CommandTable.notMem_fieldNames_of_isGeneric hg)
    · obtain ⟨f, hf⟩ := decode_fails_of_fieldFault? hnodup hn hv hk hfault name
      refine Or.inl ⟨f, ?_⟩
      show ((decode .builtin name body).result.mapError _).map _ = _
      rw [hf]
      rfl
    · exact Or.inr hw
  · rcases hq : (decode .builtin name body).result with f | q <;>
      simp only [ofDocument, hq] at hp
    · cases hp
    · exact ⟨q, rfl, (Except.ok.inj hp).symm,
        holds_of_decode hnodup hn hv hq (Profile.keeps_of_fieldFault? hn hfault)⟩
  · exact mem_issues_of_setting hnodup hn hv name
  · exact fun hnone => (Profile.keeps_of_fieldFault? hn hnone).not_refuses hw
  · exact decode_result_without hnodup hv hw name

def misplacedText : String := "\x7b\"default\":\x7b\"repository\":\x7b\"a\":1\x7d\x7d\x7d"

def misplacedBody : Mapping :=
  [(.string "repository", .mapping [(.string "a", .number (.int 1))])]

/-- A document whose profile has a map for a repository. -/
def misplaced : Document := ⟨[(.string "default", .mapping misplacedBody)]⟩

theorem parse_misplaced : Document.parse .json misplacedText = .ok misplaced :=
  toOption_eq_some.1 (by decide +kernel)

theorem mergedBody_misplaced :
    mergedBody (ofDocument misplaced "").profiles "default" = .ok misplacedBody := by
  have hroot : (ofDocument misplaced "").profiles = misplaced.root := by decide
  rw [hroot, mergedBody, ancestry, ancestryFrom_last (by decide) rfl rfl (by decide)]
  exact toOption_eq_some.1 (by decide +kernel)

/-- The repository is refused, and the profile is resolved without one. -/
theorem setting_of_resolve_misplaced :
    mergedBody (ofDocument misplaced "").profiles "default" = .ok misplacedBody ∧
    ("repository", .unusable .nestedMap) ∈
      ((ofDocument misplaced "").resolve default "default").issues ∧
    (decode .builtin "default" []).result = (decode .builtin "default" misplacedBody).result := by
  have hsetting := setting_of_resolve mergedBody_misplaced (n := "repository") (by decide) rfl
    default
  have hw : Refuses .builtin "repository" (.mapping [(.string "a", .number (.int 1))])
      .nestedMap := ⟨by decide, by decide, by decide, rfl⟩
  exact ⟨mergedBody_misplaced, (hsetting.2.2.1 _).2 ⟨_, hw, rfl⟩, (hsetting.2.2.2 _ hw).2⟩

/-- A map is no repository, and still a profile is resolved. -/
theorem resolve_misplaced : Document.parse .json misplacedText = .ok misplaced ∧
    Profile.fieldFault? "repository" (.mapping [(.string "a", .number (.int 1))]) =
      some (.notText .map) ∧
    (∃ p, ((ofDocument misplaced "").resolve default "default").result = .ok p ∧
      p.repository = ⟨""⟩) ∧
    ((ofDocument misplaced "").resolve default "default").issues =
      [("repository", .unusable .nestedMap)] := by
  rw [resolve_of_mergedBody mergedBody_misplaced]
  exact ⟨parse_misplaced, rfl, ⟨_, rfl, rfl⟩, rfl⟩

end Config

end BackupProfiles
