import BackupProfiles.Proofs.Document.Parts
import BackupProfiles.Proofs.Profile.Resolved
import BackupProfiles.Proofs.Reorder.Merge
import BackupProfiles.Proofs.Reorder.Sections
import BackupProfiles.Profile.Retention

/-!
# The order of keys does not matter

What becomes of an entry of a body depends on its key and, up to the order of keys, on its value. So
reordered bodies are split alike, the same is read from them, and the same names have issues
(`decode_reorders`). Resolving a profile of a reordered document therefore comes to the same profile
or to an error of the same kind, and its flags are the same (`resolve_reorders`).
-/

namespace BackupProfiles

open Value

variable {body other : Mapping} {table : CommandTable} {v w : Value}

section Splitting

theorem EntryRole.of_reorders (table : CommandTable) (key : Value) (h : Reorders v w) :
    EntryRole.of table key v = EntryRole.of table key w := by
  rw [EntryRole.of, EntryRole.of, FlagValue.ofValue_reorders v h]

theorem EntryRole.of_sameEntry {e f : Value × Value} (h : SameEntry e f) :
    EntryRole.of table e.1 e.2 = EntryRole.of table f.1 f.2 := by
  rw [h.1, of_reorders table f.1 h.2]

theorem keptEntries_reorders (h : Reorders (.mapping body) (.mapping other))
    (table : CommandTable) :
    Reorders (.mapping (keptEntries table body)) (.mapping (keptEntries table other)) := by
  obtain ⟨k, hk, hperm⟩ := h.entries_perm
  have hkept : List.Forall₂ SameEntry (keptEntries table body) (keptEntries table k) :=
    List.rel_filter (fun e f hef => by simp only [EntryRole.of_sameEntry hef]) hk
  exact (Reorders.entries hkept).trans (.keys (hperm.filter _))

theorem refusedEntries_perm (h : Reorders (.mapping body) (.mapping other))
    (table : CommandTable) : (refusedEntries table body).Perm (refusedEntries table other) := by
  obtain ⟨k, hk, hperm⟩ := h.entries_perm
  have hrefused : refusedEntries table body = refusedEntries table k := by
    clear h hperm
    unfold refusedEntries
    induction hk with
    | nil => rfl
    | cons hsame _ ih =>
      rw [List.filterMap_cons, List.filterMap_cons, EntryRole.of_sameEntry hsame, ih]
  rw [hrefused]
  exact hperm.filterMap _

theorem readGeneric_reorders (hp : v.Plain) (ht : v.Tidy) (h : Reorders v w) :
    (readGeneric v).toOption = (readGeneric w).toOption := by
  have hread : ∀ m : Mapping, (readGeneric (.mapping m)).toOption =
      (GenericSection.read (.mapping m)).toOption := by
    intro m
    rw [readGeneric]
    rcases GenericSection.read (.mapping m) with f | g <;> rfl
  rcases h.cases with rfl | ⟨xs, ys, rfl, rfl, -⟩ | ⟨m, n, rfl, rfl⟩ | ⟨tag, a, b, rfl, rfl, -⟩
  · rfl
  · rfl
  · rw [hread, hread]
    exact GenericSection.indifferent_read hp ht h
  · rfl

/-- What a table of values of generic sections is read to. -/
def readings (values : Table Value) (n : String) : Option (Option GenericSection) :=
  (values.get? n).map fun v => (readGeneric v).toOption

theorem readings_reorders (hp : (Value.mapping body).Plain) (ht : (Value.mapping body).Tidy)
    (h : Reorders (.mapping body) (.mapping other)) (table : CommandTable) :
    readings (genericEntries table body) = readings (genericEntries table other) := by
  funext n
  rw [readings, readings, get?_genericEntries hp ht, get?_genericEntries (h.plain hp) (h.tidy ht)]
  split
  · rcases h.get?_cases ht.distinct (.string n) with ⟨hv, hw⟩ | ⟨v, w, hv, hw, hvw⟩
    · rw [hv, hw]
    · rw [hv, hw, Option.map_some, Option.map_some,
        readGeneric_reorders (hp.get? hv) (ht.get? hv) hvw]
  · rfl

theorem bind_eq_readings (values : Table Value) (n : String) :
    ((values.get? n).bind fun v => (readGeneric v).toOption) = (readings values n).join := by
  rw [readings]
  rcases values.get? n with _ | v <;> rfl

theorem names_unreadEntries (values : Table Value) (names : List String) :
    (unreadEntries values names).map (·.1) =
      names.filter fun n => (readings values n).any Option.isNone := by
  have hunread : ∀ n, (unread? values n).isSome = (readings values n).any Option.isNone := by
    intro n
    rw [unread?, readings]
    rcases values.get? n with _ | v
    · rfl
    · rw [Option.map_some, Option.map_some]
      rcases readGeneric v with issue | g <;> rfl
  induction names with
  | nil => rfl
  | cons n rest ih =>
    rw [unreadEntries, List.filterMap_cons, List.filter_cons, ← ih, unreadEntries, ← hunread]
    rcases unread? values n with _ | issue <;> rfl

end Splitting

section Decode

/-- The same is read from reordered bodies, and the same names have issues. -/
theorem decode_reorders (hg : table.genericNames.Nodup) (hp : (Value.mapping body).Plain)
    (ht : (Value.mapping body).Tidy) (h : Reorders (.mapping body) (.mapping other))
    (name : String) :
    (decode table name body).result.toOption = (decode table name other).result.toOption ∧
      ((decode table name body).issues.map (·.1)).Perm
        ((decode table name other).issues.map (·.1)) := by
  have hkept := keptEntries_reorders h table
  have hread := Profile.indifferent_readBody (plain_keptEntries hp table)
    (ht.filter _) hkept
  have hrefused := (refusedEntries_perm h table).map (·.1)
  rcases hb : Profile.readBody (.mapping (keptEntries table body)) with f | p
  · rw [hb] at hread
    rcases ho : Profile.readBody (.mapping (keptEntries table other)) with f' | p'
    · rw [decode_of_fault hb, decode_of_fault ho]
      exact ⟨rfl, hrefused⟩
    · rw [ho] at hread
      cases hread
  · rw [hb] at hread
    have ho := toOption_eq_some.1 hread.symm
    have hreadings := readings_reorders hp ht h table
    rw [decode_of_read hg hb, decode_of_read hg ho]
    refine ⟨by simp only [bind_eq_readings, hreadings], ?_⟩
    rw [List.map_append, List.map_append, names_unreadEntries, names_unreadEntries, hreadings]
    exact hrefused.append_right _

end Decode

/-- The error without the fault in a value: which one comes first depends on the order of keys. -/
def ConfigError.withoutFault : ConfigError → ConfigError
  | unreadable key _ => unreadable key (.mismatch .noVariant)
  | e => e

namespace Config

variable {d d' : Document} {file : String}

theorem layout_reorders (hn : d.root.Distinct)
    (h : Reorders (.mapping d.root) (.mapping d'.root)) (file : String) :
    (ofDocument d file).layout = (ofDocument d' file).layout := by
  show Layout.ofValue (d.get? "version") = Layout.ofValue (d'.get? "version")
  rw [Document.get?_version, Document.get?_version]
  rcases h.get?_cases hn (.string "version") with ⟨hv, hw⟩ | ⟨v, w, hv, hw, hvw⟩
  · rw [hv, hw]
  · rw [hv, hw]
    rcases hvw.cases with rfl | ⟨xs, ys, rfl, rfl, -⟩ | ⟨m, n, rfl, rfl⟩ |
      ⟨tag, a, b, rfl, rfl, -⟩
    all_goals rfl

theorem profiles_reorders (hn : d.root.Distinct)
    (h : Reorders (.mapping d.root) (.mapping d'.root)) (file : String) :
    Reorders (.mapping (ofDocument d file).profiles) (.mapping (ofDocument d' file).profiles) := by
  have hlayout := layout_reorders hn h file
  rcases hl : (ofDocument d file).layout with _ | _
  · rw [profiles_of_flat hl, profiles_of_flat (hlayout ▸ hl)]
    exact h
  · rw [profiles_of_nested hl, profiles_of_nested (hlayout ▸ hl)]
    rcases h.get?_cases hn (.string "profiles") with ⟨hv, hw⟩ | ⟨v, w, hv, hw, hvw⟩
    · simp only [ofDocument, hv, hw]
      exact .refl _
    · simp only [ofDocument, hv, hw, Option.bind_some]
      rw [mapping?_getD, mapping?_getD]
      exact mappingEntries_reorders (hvw.untagged v)

/-- An error of the same kind or the same profile, and issues of the same names. -/
theorem resolve_reorders_of_plain (hp : (Value.mapping d.root).Plain)
    (ht : (Value.mapping d.root).Tidy) (h : Reorders (.mapping d.root) (.mapping d'.root))
    (file : String) (s : Surroundings) (name : String) :
    ((ofDocument d file).resolve s name).result.mapError ConfigError.withoutFault =
      ((ofDocument d' file).resolve s name).result.mapError ConfigError.withoutFault ∧
    (((ofDocument d file).resolve s name).issues.map (·.1)).Perm
      (((ofDocument d' file).resolve s name).issues.map (·.1)) := by
  have hmerged := mergedBody_reorders (tidy_profiles hp ht file)
    (plain_profiles hp) (profiles_reorders ht.distinct h file) name
  rcases hb : mergedBody (ofDocument d file).profiles name with e | body
  · unfold resolve
    rw [hb, hmerged.of_error hb]
    exact ⟨rfl, .refl _⟩
  · obtain ⟨other, ho, hbody⟩ := hmerged.of_ok hb
    obtain ⟨hread, hissues⟩ := decode_reorders CommandTable.nodup_genericNames_builtin
      (plain_mergedBody hp hb) (tidy_mergedBody hb) hbody name
    rw [resolve_of_mergedBody hb, resolve_of_mergedBody ho]
    refine ⟨?_, hissues⟩
    show (((decode .builtin name body).result.mapError _).map _).mapError _ =
      (((decode .builtin name other).result.mapError _).map _).mapError _
    rcases hx : (decode .builtin name body).result with f | p
    · rw [hx] at hread
      rcases hy : (decode .builtin name other).result with f' | p'
      · rfl
      · rw [hy] at hread
        cases hread
    · rw [hx] at hread
      rw [toOption_eq_some.1 hread.symm]
      rfl

/-- The order of keys in a document does not matter. Resolving a profile of a document without tags
and of one with the keys of its mappings in another order comes to an error of the same kind or to
the same profile; the same names are recorded as failed; and the flags of every command, of the
retention section and of the creation of a copy's destination are the same, in the same order. -/
theorem resolve_reorders {format : Format} {text : String} (hf : format.IsPlain)
    (hd : Document.parse format text = .ok d) (h : Reorders (.mapping d.root) (.mapping d'.root))
    (file : String) (s : Surroundings) (name : String) :
    ((ofDocument d file).resolve s name).result.mapError ConfigError.withoutFault =
      ((ofDocument d' file).resolve s name).result.mapError ConfigError.withoutFault ∧
    (∀ log : Issues, (log.failAll ((ofDocument d file).resolve s name).issues).failed.keys =
      (log.failAll ((ofDocument d' file).resolve s name).issues).failed.keys) ∧
    ∀ p p', ((ofDocument d file).resolve s name).result = .ok p →
      ((ofDocument d' file).resolve s name).result = .ok p' →
      p = p' ∧
      ∀ (s' : Surroundings) (host? : Option String) (version? : Option ToolVersion),
        let rt := { (ofDocument d file).runtime with host? := host?, version? := version? }
        let rt' := { (ofDocument d' file).runtime with host? := host?, version? := version? }
        (∀ command, p.commandFlags s' rt command = p'.commandFlags s' rt' command) ∧
        p.retentionFlags s' rt = p'.retentionFlags s' rt' ∧
        p.copyInitFlags? rt = p'.copyInitFlags? rt' := by
  have hp := Document.plain_of_parse hf hd
  have ht := Value.tidy_of_allDistinct _ (Document.distinct_of_parse hd)
  obtain ⟨hresult, hissues⟩ := resolve_reorders_of_plain hp ht h file s name
  refine ⟨hresult, Issues.keys_failAll_perm hissues, fun p p' hok hok' => ?_⟩
  rw [hok, hok'] at hresult
  obtain rfl : p = p' := Except.ok.inj hresult
  have hruntime : (ofDocument d file).runtime = (ofDocument d' file).runtime := by
    rw [runtime, runtime, layout_reorders ht.distinct h file]
    rfl
  rw [hruntime]
  exact ⟨rfl, fun _ _ _ => ⟨fun _ => rfl, rfl, rfl⟩⟩

/-- The mixed document with the keys of its profile turned round. -/
def mixedTurned : Document := ⟨[(.string "a", .mapping mixedBody.reverse)]⟩

theorem mixed_reorders : Reorders (.mapping mixed.root) (.mapping mixedTurned.root) :=
  .entry [] [] (.string "a") (.keys (List.reverse_perm mixedBody).symm)

theorem resolve_reorders_mixed : Document.parse .toml mixedText = .ok mixed ∧
    Reorders (.mapping mixed.root) (.mapping mixedTurned.root) ∧
    ∃ p, ((ofDocument mixed "").resolve default "a").result = .ok p ∧
      ((ofDocument mixedTurned "").resolve default "a").result = .ok p ∧
      (Issues.empty.failAll ((ofDocument mixedTurned "").resolve default "a").issues).failed.keys =
        ["odd"] := by
  refine ⟨parse_mixed, mixed_reorders, ?_⟩
  obtain ⟨hresult, hissues, -⟩ :=
    resolve_reorders (Or.inr rfl) parse_mixed mixed_reorders "" default "a"
  have hkeys := hissues .empty
  rw [resolve_of_mergedBody mergedBody_mixed] at hresult hkeys ⊢
  rcases hturned : ((ofDocument mixedTurned "").resolve default "a").result with e | p
  · rw [hturned] at hresult
    cases hresult
  · rw [hturned] at hresult
    exact ⟨p, hresult, rfl, hkeys.symm.trans rfl⟩

end Config

end BackupProfiles
