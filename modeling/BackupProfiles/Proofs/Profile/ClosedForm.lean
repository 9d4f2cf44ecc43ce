import BackupProfiles.Proofs.Document.Bodies
import BackupProfiles.Proofs.Flags.Derivation
import BackupProfiles.Proofs.Merge.Markerless
import BackupProfiles.Proofs.Profile.Settings

/-!
# Closed forms of profiles

What the chain of a profile merges to can stand in the document in place of the body, once the
parent is taken off. The profile is then its whole chain, its body merges to itself, and it resolves
to what it did before but for the name of the parent (`Config.closed_of_resolve`). No marker may be
left to act again, so the layers of the chain must have no doubly marked keys.
-/

namespace BackupProfiles

/-- The key of the setting that names the parent. -/
def inheritKey : Value := .string "inherit"

variable {body : Mapping} {name : String} {q : Profile}

section Entries

variable {n key : String}

theorem Entries.read_filter_ne {α : Type} (h : key ≠ n) (es : Entries) (r : Reader α) (default : α) :
    read (es.filter fun e => e.1 ≠ key) n r default = es.read n r default := by
  have hget : get? (es.filter fun e => e.1 ≠ key) n = es.get? n := by
    rw [get?_eq, get?_eq, entryFor?_filter_ne, if_neg h]
  unfold read
  rw [hget]

theorem Entries.toMapping_filter_ne (es : Entries) (key : String) :
    toMapping (es.filter fun e => e.1 ≠ key) = es.toMapping.without (.string key) := by
  rw [toMapping, toMapping, Mapping.without_string, List.filter_map]
  simp [Function.comp_def]

/-- Fields are no flags. -/
theorem Shape.flags_filter_field {s : Shape} (h : key ∈ s.fieldNames) (es : Entries) :
    s.flags (es.filter fun e => e.1 ≠ key) = s.flags es := by
  rw [flags, flags, others, others, List.filter_filter]
  refine congrArg (fun l => Table.ofList (List.filterMap _ l)) (List.filter_congr fun e _ => ?_)
  by_cases he : e.1 = key
  · simp [he, h]
  · simp [he]

/-- The entry for the parent only counts for the name of the parent. -/
theorem Profile.ofEntries_without_inherit (es : Entries) :
    ofEntries (es.filter fun e => e.1 ≠ "inherit") = { ofEntries es with inherit := "" } := by
  have hread : ∀ {α : Type} (r : Reader α) (default : α) (n : String), "inherit" ≠ n →
      Entries.read (es.filter fun e => e.1 ≠ "inherit") n r default = es.read n r default :=
    fun r default _ h => Entries.read_filter_ne h es r default
  have hinherit : Entries.read (es.filter fun e => e.1 ≠ "inherit") "inherit" Reader.text "" = "" := by
    have hget : Entries.get? (es.filter fun e => e.1 ≠ "inherit") "inherit" = none := by
      rw [Entries.get?_eq, entryFor?_filter_ne, if_pos rfl]
    rw [Entries.read, hget]
  have hflags : shape.flags (es.filter fun e => e.1 ≠ "inherit") = shape.flags es :=
    Shape.flags_filter_field (by decide) es
  unfold ofEntries
  rw [hinherit, hflags]
  simp only [hread, ne_eq, String.reduceEq, not_false_eq_true]

end Entries

/-- Reading a body without its parent. -/
theorem decode_without_inherit (hn : body.keys.Nodup)
    (h : (decode .builtin name body).result = .ok q) :
    (decode .builtin name (body.without inheritKey)).result = .ok { q with inherit := "" } := by
  obtain ⟨es, hes, ha, rfl, -⟩ := entries_of_decode hn h
  have hkept : keptEntries .builtin (body.without inheritKey) =
      Entries.toMapping (es.filter fun e => e.1 ≠ "inherit") := by
    rw [keptEntries_without, hes, Entries.toMapping_filter_ne]
    rfl
  have hgeneric : genericEntries .builtin (body.without inheritKey) = genericEntries .builtin body :=
    genericEntries_without (by decide) body
  have hread : Profile.readBody (.mapping (keptEntries .builtin (body.without inheritKey))) =
      .ok (Profile.ofEntries (es.filter fun e => e.1 ≠ "inherit")) :=
    readBody_of_entries (Mapping.nodup_filter hn _) hkept fun e he => ha e (List.mem_filter.1 he).1
  rw [decode_of_read CommandTable.nodup_genericNames_builtin hread, hgeneric,
    Profile.ofEntries_without_inherit]
  rfl

theorem parentName?_without_inherit (body : Mapping) :
    parentName? (body.without inheritKey) = none := by
  have hget : (body.without inheritKey).get? inheritKey = none := by
    rw [Mapping.get?_without, if_pos (Value.sameKey_self _)]
  unfold parentName?
  rw [show Value.string "inherit" = inheritKey from rfl, hget]

/-- A chain that is found starts with a profile that has a body. -/
theorem body_of_ancestryFrom {left : Mapping} {visited : List String} {layers : List Layer}
    (h : ancestryFrom left visited name = .ok layers) :
    ∃ v body, left.get? (.string name) = some v ∧ bodyOf name v = .ok body := by
  unfold ancestryFrom at h
  split at h
  · cases h
  split at h
  · cases h
  rename_i v hv
  rcases hb : bodyOf name v with e | body
  · rw [hb] at h
    cases h
  · exact ⟨v, body, hv, hb⟩

/-- The document with the parent taken off a body, as the body of a profile. -/
def Document.closing (d : Document) (name : String) (body : Mapping) : Document :=
  d.reviseBodies [name] fun _ => body.without inheritKey

/-- Nothing is derived from the name of the parent. -/
theorem Profile.derive?_inherit (s : Surroundings) (rt : Runtime) (p : Profile) (inherit : String)
    (what : Derivation) : derive? s rt { p with inherit := inherit } what = p.derive? s rt what := by
  cases what <;> rfl

namespace Config

variable {d : Document} {file : String} {layers : List Layer} {s : Surroundings} {p : Profile}

theorem ancestry_closing (ha : ancestry (ofDocument d file).profiles name = .ok layers)
    (body : Mapping) : ancestry (ofDocument (d.closing name body) file).profiles name =
      .ok [⟨name, body.without inheritKey⟩] := by
  obtain ⟨v, old, hv, hold⟩ := body_of_ancestryFrom ha
  have hbody : bodyOf name (v.reviseBody fun _ => body.without inheritKey) =
      .ok (body.without inheritKey) := by
    rw [Value.bodyOf_reviseBody, hold]
    rfl
  have hvalue : ((ofDocument d file).profiles.reviseAt [name]
      (Value.reviseBody fun _ => body.without inheritKey)).get? (.string name) =
      some (v.reviseBody fun _ => body.without inheritKey) := by
    rw [get?_revised hv, if_pos (List.mem_singleton_self name)]
  rw [Document.closing, profiles_reviseBodies, ancestry,
    ancestryFrom_last List.not_mem_nil hvalue hbody (parentName?_without_inherit body)]

/-- The merged body of a profile with its parent taken off is a closed form. With it as the body of
the profile, the body merges to itself, and the profile resolves again, to one that only differs in
the name of the parent. The same flags are derived from it, whatever the host and the version. -/
theorem closed_of_resolve (hd : d.Distinct)
    (ha : ancestry (ofDocument d file).profiles name = .ok layers)
    (hs : ∀ layer ∈ layers, layer.body.SinglyMarked)
    (hp : ((ofDocument d file).resolve s name).result = .ok p) :
    ∃ merged, mergedBody (ofDocument d file).profiles name = .ok merged ∧
      mergedBody (ofDocument (d.closing name merged) file).profiles name =
        .ok (merged.without inheritKey) ∧
      ((ofDocument (d.closing name merged) file).resolve s name).result =
        .ok { p with inherit := "" } ∧
      ∀ s' host? version? what,
        Profile.derive? s' ((ofDocument (d.closing name merged) file).runtimeIn host? version?)
            { p with inherit := "" } what =
          p.derive? s' ((ofDocument d file).runtimeIn host? version?) what := by
  obtain ⟨merged, q, hmerged, hq, rfl⟩ := of_resolve hp
  have htidy := tidy_mergedBody hmerged
  have hmarkerless : merged.Markerless := by
    obtain rfl : mergeLayers layers = merged :=
      Except.ok.inj ((mergedBody_of_ancestry ha).symm.trans hmerged)
    exact markerless_mergeLayers (tidy_of_ancestry hd ha) hs
  have hclosed : mergedBody (ofDocument (d.closing name merged) file).profiles name =
      .ok (merged.without inheritKey) := by
    rw [mergedBody_of_ancestry (ancestry_closing ha merged),
      mergeLayers_singleton (htidy.filter _) (hmarkerless.without inheritKey)]
  refine ⟨merged, hmerged, hclosed, ?_, fun s' host? version? what => ?_⟩
  · have hread := decode_without_inherit htidy.nodup hq
    rw [resolve_of_mergedBody hclosed]
    show ((decode .builtin name (merged.without inheritKey)).result.mapError _).map _ = _
    rw [hread]
    rfl
  · have hruntime : (ofDocument (d.closing name merged) file).runtimeIn host? version? =
        (ofDocument d file).runtimeIn host? version? := by
      rw [runtimeIn, runtimeIn, runtime, runtime, Document.closing, layout_reviseBodies]
      rfl
    rw [hruntime, Profile.derive?_inherit]

theorem singlyMarked_threeLayers : ∀ layer ∈ threeLayersChain, layer.body.SinglyMarked := by
  have hdepth : ∀ layer ∈ threeLayersChain, ¬ layer.body.DoublyMarked ∧
      ∀ e ∈ layer.body, ¬ e.2.mappingEntries.DoublyMarked ∧
        ∀ inner ∈ e.2.mappingEntries, inner.2.mappingEntries = [] := by
    decide
  intro layer hl
  obtain ⟨hbody, hentries⟩ := hdepth layer hl
  refine .of_entries hbody fun e he => .of_entries (hentries e he).1 fun inner hi => ?_
  rw [(hentries e he).2 inner hi]
  exact .nil

/-- The lists of three layers are put together once. -/
theorem closed_of_resolve_threeLayers : threeLayers.document.Distinct ∧
    ancestry threeLayers.profiles "child" = .ok threeLayersChain ∧
    (∀ layer ∈ threeLayersChain, layer.body.SinglyMarked) ∧
    ∃ p merged, (threeLayers.resolve default "child").result = .ok p ∧ p.inherit = " middle " ∧
      mergedBody threeLayers.profiles "child" = .ok merged ∧
      ((ofDocument (threeLayers.document.closing "child" merged) "").resolve default "child").result =
        .ok { p with inherit := "" } := by
  have hresolve : ∃ p, (threeLayers.resolve default "child").result = .ok p ∧
      p.inherit = " middle " := by
    rw [resolve_of_mergedBody (mergedBody_of_ancestry ancestry_threeLayers)]
    exact ⟨_, rfl, rfl⟩
  obtain ⟨p, hp, hinherit⟩ := hresolve
  obtain ⟨merged, hmerged, -, hclosed, -⟩ := closed_of_resolve distinct_threeLayers
    ancestry_threeLayers singlyMarked_threeLayers hp
  exact ⟨distinct_threeLayers, ancestry_threeLayers, singlyMarked_threeLayers, p, merged, hp,
    hinherit, hmerged, hclosed⟩

end Config

end BackupProfiles
