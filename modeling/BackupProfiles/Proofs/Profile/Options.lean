import BackupProfiles.Proofs.Document.Bodies
import BackupProfiles.Proofs.Merge.Restrict
import BackupProfiles.Proofs.Profile.Settings

/-!
# Options of a profile

The keys of a body that are no settings and no generic sections are options: they are handed on as
flags. One whose value cannot stand in a flag is left out with an issue. One that can is kept, and
it still makes the whole profile unreadable if its key is no text or a tag stands in its value
(`Breaks`). Apart from those, an option never makes resolving fail (`Config.failsDecoding_iff`).
-/

namespace BackupProfiles

variable {body : Mapping} {e : Value × Value} {n name : String} {v : Value}

/-- A key that is no setting of a profile. -/
def Unsettled (key : Value) : Prop := ∀ n ∈ Profile.shape.fieldNames, key ≠ .string n

/-- An option that can stand in a flag and still cannot be read. -/
structure Breaks (e : Value × Value) : Prop where
  unsettled : Unsettled e.1
  named : ∃ n, e.1.keyText = some n ∧ CommandTable.builtin.isGeneric n = false
  fits : FlagValue.Fits e.2
  odd : (∀ n, e.1 ≠ .string n) ∨ e.2.hasTag = true

theorem contains_eq_false_of_unsettled (hn : n ∉ Profile.shape.fieldNames)
    (hg : CommandTable.builtin.isGeneric n = false) :
    CommandTable.builtin.contains n = false ∧ n ≠ "env" := by
  refine ⟨?_, ?_⟩
  · rw [← Bool.not_eq_true]
    exact fun hc => hn (CommandTable.mem_fieldNames_of_contains hc hg)
  · rintro rfl
    exact hn (by decide)

/-- An option is kept exactly if its value can stand in a flag. -/
theorem keeps_iff_fits (hn : n ∉ Profile.shape.fieldNames) :
    Keeps .builtin n v ↔ CommandTable.builtin.isGeneric n = false ∧ FlagValue.Fits v := by
  refine ⟨fun hk => ⟨hk.1, ?_⟩, fun ⟨hg, hx⟩ => ⟨hg, Or.inr hx⟩⟩
  obtain ⟨hc, he⟩ := contains_eq_false_of_unsettled hn hk.1
  rcases hk.2 with (h | h) | h
  · rw [hc] at h
    cases h
  · exact absurd h he
  · exact h

theorem refuses_iff_of_unsettled (hn : n ∉ Profile.shape.fieldNames) {why : FlagValue.Refusal} :
    Refuses .builtin n v why ↔
      CommandTable.builtin.isGeneric n = false ∧ FlagValue.ofValue v = .error why := by
  refine ⟨fun hw => ⟨hw.1, hw.2.2.2⟩, fun ⟨hg, hw⟩ => ?_⟩
  obtain ⟨hc, he⟩ := contains_eq_false_of_unsettled hn hg
  exact ⟨hg, hc, he, hw⟩

/-- The text of a key that is no setting is the name of none. -/
theorem notMem_fieldNames_of_unsettled (h : Unsettled e.1) (hk : e.1.keyText = some n) :
    n ∉ Profile.shape.fieldNames :=
  fun hn => h n hn (Value.eq_string_of_keyText hk hn)

theorem Profile.accepts_iff_of_unsettled (hn : n ∉ shape.fieldNames) (hx : FlagValue.Fits v) :
    shape.Accepts n v ↔ v.hasTag = false := by
  have hl := lookup_own_eq_none_iff.2 hn
  refine ⟨fun ha => ha.untagged hl, fun ht => ⟨?_, fun _ => ht, fun _ => hx⟩⟩
  show ∀ g ∈ [shape.own], _
  rw [List.forall_mem_singleton]
  exact FieldChecks.passes_of_lookup_none hl

theorem readable_iff_of_unsettled (h : Unsettled e.1) (hx : FlagValue.Fits e.2) :
    Readable e ↔ (∃ n, e.1 = .string n) ∧ e.2.hasTag = false := by
  have haccepts : ∀ n, e.1 = .string n → (Profile.shape.Accepts n e.2 ↔ e.2.hasTag = false) :=
    fun n hn => Profile.accepts_iff_of_unsettled (fun hf => h n hf hn) hx
  constructor
  · rintro ⟨n, hn, ha⟩
    exact ⟨⟨n, hn⟩, (haccepts n hn).1 ha⟩
  · rintro ⟨⟨n, hn⟩, ht⟩
    exact ⟨n, hn, (haccepts n hn).2 ht⟩

/-- The entries that make reading a body fail, besides settings. -/
theorem breaks_iff (h : Unsettled e.1) :
    e ∈ keptEntries .builtin body ∧ ¬ Readable e ↔ e ∈ body ∧ Breaks e := by
  rw [keptEntries, List.mem_filter, beq_iff_eq, and_assoc]
  refine and_congr_right fun _ => ?_
  rcases hk : e.1.keyText with _ | n
  · constructor
    · rintro ⟨hrole, -⟩
      simp [EntryRole.of, hk] at hrole
    · rintro ⟨-, ⟨n, hn, -⟩, -, -⟩
      rw [hk] at hn
      cases hn
  · rw [EntryRole.of_keyText hk, EntryRole.of_eq_kept,
      keeps_iff_fits (notMem_fieldNames_of_unsettled h hk)]
    constructor
    · rintro ⟨⟨hg, hx⟩, hread⟩
      rw [readable_iff_of_unsettled h hx, not_and_or] at hread
      exact ⟨h, ⟨n, hk, hg⟩, hx, by simpa using hread⟩
    · rintro ⟨-, ⟨m, hm, hg⟩, hx, hodd⟩
      obtain rfl : n = m := Option.some.inj (hk.symm.trans hm)
      refine ⟨⟨hg, hx⟩, ?_⟩
      rw [readable_iff_of_unsettled h hx, not_and_or]
      simpa using hodd

/-- Restricted to settings, a body is read like the body it narrows, but for options. -/
theorem unreadable_iff_of_narrows {pruned : Mapping}
    (h : body.Narrows Profile.shape.fieldNames pruned) :
    (∃ e ∈ keptEntries .builtin body, ¬ Readable e) ↔
      (∃ e ∈ keptEntries .builtin pruned, ¬ Readable e) ∨ ∃ e ∈ body, Breaks e := by
  have hmem : ∀ n ∈ Profile.shape.fieldNames, ∀ v,
      (.string n, v) ∈ keptEntries .builtin pruned ↔ (.string n, v) ∈ keptEntries .builtin body := by
    intro n hn v
    rw [mem_keptEntries, mem_keptEntries, ← Mapping.get?_eq_some_iff h.distinct_narrow.nodup,
      h.get? n hn, Mapping.get?_eq_some_iff h.distinct.nodup]
  constructor
  · rintro ⟨e, he, hread⟩
    by_cases hs : Unsettled e.1
    · exact Or.inr ⟨e, (breaks_iff hs).1 ⟨he, hread⟩⟩
    · obtain ⟨n, hn, hkey⟩ : ∃ n ∈ Profile.shape.fieldNames, e.1 = .string n := by
        simpa [Unsettled] using hs
      obtain ⟨key, v⟩ := e
      obtain rfl : key = .string n := hkey
      exact Or.inl ⟨_, (hmem n hn v).2 he, hread⟩
  · rintro (⟨⟨key, v⟩, he, hread⟩ | ⟨e, he, hb⟩)
    · obtain ⟨n, hn, rfl⟩ := h.only key (Mapping.mem_keys (List.mem_filter.1 he).1)
      exact ⟨_, (hmem n hn v).1 he, hread⟩
    · exact ⟨e, (breaks_iff hb.unsettled).2 ⟨he, hb⟩⟩

namespace Config

variable {c : Config} {s : Surroundings}

/-- The profile is found with its ancestors, and cannot be read. -/
def FailsDecoding (c : Config) (s : Surroundings) (name : String) : Prop :=
  ∃ f, (c.resolve s name).result = .error (.unreadable name f)

/-- The names of a profile and its ancestors, none where the chain is broken. -/
def chain (c : Config) (name : String) : List String :=
  match ancestry c.profiles name with
  | .ok layers => layers.map (·.name)
  | .error _ => []

theorem failsDecoding_iff_of_mergedBody (hc : c.table = .builtin)
    (hbody : mergedBody c.profiles name = .ok body) (s : Surroundings) :
    c.FailsDecoding s name ↔ ∃ e ∈ keptEntries .builtin body, ¬ Readable e := by
  rw [← decode_fails_iff (tidy_mergedBody hbody).nodup name, FailsDecoding,
    resolve_of_mergedBody hbody, hc]
  rcases (decode .builtin name body).result with f | q
  · exact ⟨fun _ => ⟨f, rfl⟩, fun _ => ⟨f, rfl⟩⟩
  · exact ⟨nofun, nofun⟩

/-- The flags of a resolved profile are the entries of its merged body that are kept and no
settings. -/
theorem get?_flags_of_resolve {p : Profile} (hc : c.table = .builtin)
    (hbody : mergedBody c.profiles name = .ok body) (hp : (c.resolve s name).result = .ok p)
    {x : FlagValue} : p.flags.get? n = some x ↔ n ∉ Profile.shape.fieldNames ∧
      ∃ v, body.get? (.string n) = some v ∧ Keeps .builtin n v ∧ FlagValue.ofValue v = .ok x := by
  obtain ⟨other, q, ho, hq, rfl⟩ := of_resolve hp
  obtain rfl : body = other := Except.ok.inj (hbody.symm.trans ho)
  have hnodup := (tidy_mergedBody hbody).nodup
  rw [hc] at hq
  obtain ⟨es, hes, -, hq', -⟩ := entries_of_decode hnodup hq
  have hflags : q.flags = (Profile.ofEntries es).flags := by rw [hq']
  have hanchor : ((q.anchor s.home? c.rootFolder).expandSources (Glob.expand s)).flags = q.flags :=
    anchorFlags_eq_self fun m y hm => by
      rw [hflags, get?_flags_of_entries hnodup hes] at hm
      exact hm.1
  rw [hanchor, hflags, get?_flags_of_entries hnodup hes]

end Config

/-- The document with nothing but settings in the bodies of some profiles. -/
def Document.withoutOptions (d : Document) (names : List String) : Document :=
  d.reviseBodies names (Mapping.restrict Profile.shape.fieldNames)

namespace Config

theorem parentName?_restrict (body : Mapping) :
    parentName? (body.restrict Profile.shape.fieldNames) = parentName? body := by
  rw [parentName?, parentName?, Mapping.get?_restrict body (by decide)]

/-- Without options, the chain of a profile merges to its settings. -/
theorem mergedBody_withoutOptions (d : Document) (file name : String) :
    (∃ e, mergedBody (ofDocument d file).profiles name = .error e ∧
      mergedBody (ofDocument (d.withoutOptions ((ofDocument d file).chain name)) file).profiles name
        = .error e) ∨
    ∃ body pruned, mergedBody (ofDocument d file).profiles name = .ok body ∧
      mergedBody (ofDocument (d.withoutOptions ((ofDocument d file).chain name)) file).profiles name
        = .ok pruned ∧ body.Narrows Profile.shape.fieldNames pruned := by
  rw [Document.withoutOptions, mergedBody, mergedBody, ancestry_revise parentName?_restrict, chain]
  rcases ancestry (ofDocument d file).profiles name with e | layers
  · exact Or.inl ⟨e, rfl, rfl⟩
  · refine Or.inr ⟨_, _, rfl, rfl, ?_⟩
    have hrevise : layers.map (Layer.revise (layers.map (·.name))
          (Mapping.restrict Profile.shape.fieldNames)) =
        layers.map fun layer => ⟨layer.name, layer.body.restrict Profile.shape.fieldNames⟩ :=
      List.map_congr_left fun layer hl => by
        rw [Layer.revise, if_pos (List.mem_map_of_mem hl)]
    have hnarrows := narrows_mergeLayers Profile.shape.fieldNames layers
    rwa [← hrevise] at hnarrows

/-- Resolving a profile fails on decoding exactly if it does so with the settings of its chain
alone, or if an option breaks it. A resolved profile has the other options as flags, each under its
name, and nothing else; the options that cannot stand in a flag are issues. -/
theorem failsDecoding_iff (d : Document) (file : String) (s : Surroundings) (name : String) :
    ((ofDocument d file).FailsDecoding s name ↔
      (ofDocument (d.withoutOptions ((ofDocument d file).chain name)) file).FailsDecoding s name ∨
      ∃ body, mergedBody (ofDocument d file).profiles name = .ok body ∧ ∃ e ∈ body, Breaks e) ∧
    ∀ body, mergedBody (ofDocument d file).profiles name = .ok body →
      ∀ n, n ∉ Profile.shape.fieldNames → CommandTable.builtin.isGeneric n = false →
        (∀ p, ((ofDocument d file).resolve s name).result = .ok p → ∀ x,
          p.flags.get? n = some x ↔
            ∃ v, body.get? (.string n) = some v ∧ FlagValue.ofValue v = .ok x) ∧
        ∀ issue, (n, issue) ∈ ((ofDocument d file).resolve s name).issues ↔
          ∃ key v why, (key, v) ∈ body ∧ key.keyText = some n ∧
            FlagValue.ofValue v = .error why ∧ issue = .unusable why := by
  refine ⟨?_, fun body hbody n hn hg => ⟨fun p hp x => ?_, fun issue => ?_⟩⟩
  · obtain ⟨e, hb, hp⟩ | ⟨body, pruned, hb, hp, hnarrows⟩ := mergedBody_withoutOptions d file name
    · simp only [FailsDecoding, resolve, hb, hp, reduceCtorEq, false_and, exists_false, or_false]
    · rw [failsDecoding_iff_of_mergedBody rfl hb, failsDecoding_iff_of_mergedBody rfl hp,
        unreadable_iff_of_narrows hnarrows, hb]
      simp only [Except.ok.injEq, exists_eq_left']
  · simp only [get?_flags_of_resolve rfl hbody hp, hn, not_false_eq_true, true_and,
      keeps_iff_fits hn, hg]
    exact exists_congr fun v => and_congr_right fun _ =>
      ⟨fun h => h.2, fun h => ⟨⟨x, h⟩, h⟩⟩
  · rw [resolve_of_mergedBody hbody]
    show (n, issue) ∈ (decode .builtin name body).issues ↔ _
    rw [mem_issues_iff_mem_refusedEntries hg, mem_refusedEntries_iff]
    simp only [refuses_iff_of_unsettled hn, hg, true_and]

def numberedText : String := "a:\n  no-cache: true\n  1: one\n"

def numberedBody : Mapping :=
  [(.string "no-cache", .bool true), (.number (.int 1), .string "one")]

/-- A document whose profile has a number for a key. -/
def numbered : Document := ⟨[(.string "a", .mapping numberedBody)]⟩

theorem parse_numbered : Document.parse .yaml numberedText = .ok numbered :=
  toOption_eq_some.1 (by decide +kernel)

theorem ancestry_numbered :
    ancestry (ofDocument numbered "").profiles "a" = .ok [⟨"a", numberedBody⟩] := by
  have hroot : (ofDocument numbered "").profiles = numbered.root := by decide
  rw [hroot, ancestry, ancestryFrom_last (by decide) rfl rfl (by decide)]

/-- Resolving fails for an option that can stand in a flag, and does not without it. -/
theorem failsDecoding_numbered : Document.parse .yaml numberedText = .ok numbered ∧
    FlagValue.ofValue (.string "one") = .ok (.text "one") ∧
    (ofDocument numbered "").FailsDecoding default "a" ∧
    ¬ (ofDocument (numbered.withoutOptions ((ofDocument numbered "").chain "a")) "").FailsDecoding
      default "a" := by
  have hchain : (ofDocument numbered "").chain "a" = ["a"] := by
    rw [chain, ancestry_numbered]
    rfl
  have hpruned : mergedBody
      (ofDocument (numbered.withoutOptions ["a"]) "").profiles "a" = .ok [] := by
    rw [Document.withoutOptions, mergedBody, ancestry_revise parentName?_restrict,
      ancestry_numbered]
    exact toOption_eq_some.1 (by decide +kernel)
  refine ⟨parse_numbered, rfl, ⟨.unexpected (.number (.int 1)) "field identifier", ?_⟩, ?_⟩
  · rw [resolve, mergedBody_of_ancestry ancestry_numbered]
    rfl
  · rw [hchain, failsDecoding_iff_of_mergedBody rfl hpruned]
    rintro ⟨e, he, -⟩
    cases he

end Config

end BackupProfiles
