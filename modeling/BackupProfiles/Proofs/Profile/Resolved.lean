import BackupProfiles.Profile.Retention
import BackupProfiles.Proofs.Profile.Account

/-!
# Resolved profiles

A resolved profile is a body that was read, anchored at the root of the configuration, with its
sources expanded (`Config.of_resolve`). So the fields of its backup and its retention section are no
flags of them (`Config.get?_backup_flags`, `Config.get?_retention_flags`), and sources with one
pattern stand for the same paths (`Config.sources_of_resolve`).
-/

namespace BackupProfiles

theorem Shape.get?_flags_of_field {s : Shape} {n : String} (h : n ∈ s.fieldNames) (es : Entries) :
    (s.flags es).get? n = none :=
  Option.eq_none_iff_forall_ne_some.2 fun _ hx => (mem_of_get?_flags hx).1 h

theorem Shape.of_readOpen {σ : Type} {s : Shape} {build : Entries → σ} {v : Value} {a : σ}
    (h : s.readOpen build v = .ok a) : ∃ es, a = build es := by
  unfold readOpen at h
  split at h
  · split at h
    · cases h
    · exact ⟨_, (Except.ok.inj h).symm⟩
  · exact ⟨_, (Except.ok.inj h).symm⟩
  · cases h

/-- The fields of a section that was read are no flags of it, anchored or not. -/
theorem Shape.get?_anchorFlags_of_field {σ : Type} {s : Shape} {build : Entries → σ} {a : σ}
    {es : Entries} {key n : String}
    (h : es.read key (Reader.optional (s.readOpen build)) none = some a)
    (hn : n ∈ s.fieldNames) (f : Anchoring) :
    ∃ fields, a = build fields ∧ (anchorFlags f (s.flags fields)).get? n = none := by
  obtain ⟨v, -, hv⟩ := Entries.get?_of_read h
  obtain ⟨fields, ha⟩ := of_readOpen (Reader.of_optional hv)
  refine ⟨fields, ha, ?_⟩
  rw [anchorFlags_eq, Table.get?_mapEntries, get?_flags_of_field hn, Option.map_none]

/-- What a body is read to, but for its name and its generic sections. -/
theorem of_decode {table : CommandTable} {name : String} {body : Mapping} {q : Profile}
    (h : (decode table name body).result = .ok q) : ∃ es generic,
    q = { Profile.ofEntries es with name := name, generic := generic } := by
  unfold decode at h
  rcases hp : Profile.readBody (.mapping (keptEntries table body)) with f | p
  · rw [hp] at h
    cases h
  · rw [hp] at h
    obtain ⟨es, rfl⟩ := Shape.of_readOpen hp
    exact ⟨es, _, (Except.ok.inj h).symm⟩

namespace Config

variable {c : Config} {s : Surroundings} {name n : String} {p : Profile} {r : RetentionSection}
  {b : BackupSection}

theorem resolve_of_mergedBody {body : Mapping}
    (h : mergedBody c.profiles name = .ok body) (s : Surroundings) : c.resolve s name =
      ⟨((decode c.table name body).result.mapError (.unreadable name)).map fun p =>
        (p.anchor s.home? c.rootFolder).expandSources (Glob.expand s),
        (decode c.table name body).issues⟩ := by
  unfold resolve
  rw [h]
  dsimp only
  rcases (decode c.table name body).result with f | p <;> rfl

/-- A profile that is resolved. -/
theorem of_resolve (h : (c.resolve s name).result = .ok p) : ∃ body q,
    mergedBody c.profiles name = .ok body ∧ (decode c.table name body).result = .ok q ∧
      p = (q.anchor s.home? c.rootFolder).expandSources (Glob.expand s) := by
  rcases hb : mergedBody c.profiles name with e | body
  · unfold resolve at h
    rw [hb] at h
    cases h
  · rw [resolve_of_mergedBody hb] at h
    rcases hq : (decode c.table name body).result with f | q
    · rw [hq] at h
      cases h
    · rw [hq] at h
      exact ⟨body, q, rfl, hq, (Except.ok.inj h).symm⟩

theorem get?_retention_flags (h : (c.resolve s name).result = .ok p)
    (hr : p.retention? = some r) (hn : n ∈ RetentionSection.shape.fieldNames) :
    r.flags.get? n = none := by
  obtain ⟨body, q, -, hq, rfl⟩ := of_resolve h
  obtain ⟨es, generic, rfl⟩ := of_decode hq
  obtain ⟨read, hread, rfl⟩ := Option.map_eq_some_iff.1 hr
  obtain ⟨fields, rfl, hget⟩ := Shape.get?_anchorFlags_of_field hread hn _
  exact hget

theorem get?_backup_flags (h : (c.resolve s name).result = .ok p) (hb : p.backup? = some b)
    (hn : n ∈ BackupSection.shape.fieldNames) : b.flags.get? n = none := by
  obtain ⟨body, q, -, hq, rfl⟩ := of_resolve h
  obtain ⟨es, generic, rfl⟩ := of_decode hq
  obtain ⟨anchored, hanchored, rfl⟩ := Option.map_eq_some_iff.1 hb
  obtain ⟨read, hread, rfl⟩ := Option.map_eq_some_iff.1 hanchored
  obtain ⟨fields, rfl, hget⟩ := Shape.get?_anchorFlags_of_field hread hn _
  exact hget

/-- The sources of a resolved profile are the patterns of its backup section. -/
theorem sources_of_resolve (h : (c.resolve s name).result = .ok p) : p.sources =
    (p.backup?.elim [] (·.source)).map fun pattern => ⟨pattern, Glob.expand s pattern⟩ := by
  obtain ⟨body, q, -, -, rfl⟩ := of_resolve h
  show Profile.sources { q.anchor s.home? c.rootFolder with
    backup? := ((q.anchor s.home? c.rootFolder).backup?).map (·.expand (Glob.expand s)) } = _
  unfold Profile.sources Profile.expandSources
  rcases (q.anchor s.home? c.rootFolder).backup? with _ | b <;> rfl

end Config

end BackupProfiles
