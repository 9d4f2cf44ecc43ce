import BackupProfiles.Profile.Retention
import BackupProfiles.Proofs.Containment.Merge
import BackupProfiles.Proofs.Profile.Resolved

/-!
# Generic sections are contained

What stands under the name of a generic section is read for that section and for nothing else, so
bodies that agree but for it are read to profiles that are equal but for it (`decode_agreeBut`).
Whatever a document has in that place, no resolution comes out differently otherwise: not its
errors, not the other issues, not the flags of any other command (`Config.resolve_contained`).
-/

namespace BackupProfiles

open CommandTable

variable {body other : Mapping} {g : String}

section Splitting

variable {table : CommandTable}

/-- The name of a generic command is no marker. -/
theorem Marker.ofKey?_of_isGeneric (hg : builtin.isGeneric g = true) :
    ofKey? (.string g) = none := by
  rw [isGeneric_builtin] at hg
  revert g
  decide

theorem EntryRole.of_isGeneric (hg : table.isGeneric g = true) (v : Value) :
    EntryRole.of table (.string g) v = .generic g := by
  rcases EntryRole.of_string table g v with ⟨-, hr⟩ | ⟨hk, -⟩ | ⟨why, hw, -⟩
  · exact hr
  · rw [hk.1] at hg
    cases hg
  · rw [hw.1] at hg
    cases hg

theorem keptEntries_agreeBut (hg : table.isGeneric g = true)
    (h : AgreeBut (.string g) body other) : keptEntries table body = keptEntries table other :=
  h.filter_eq fun v => by simp [EntryRole.of_isGeneric hg v]

theorem refusedEntries_agreeBut (hg : table.isGeneric g = true)
    (h : AgreeBut (.string g) body other) :
    refusedEntries table body = refusedEntries table other :=
  h.filterMap_eq fun v => by simp [EntryRole.of_isGeneric hg v]

theorem get?_genericEntries_agreeBut (hg : table.isGeneric g = true)
    (h : AgreeBut (.string g) body other) {n : String} (hn : n ≠ g) :
    (genericEntries table body).get? n = (genericEntries table other).get? n := by
  rw [genericEntries, genericEntries, Table.get?_ofList, Table.get?_ofList]
  refine AgreeBut.entryFor?_eq (AgreeBut.reverse ?_) hn
  refine List.rel_filterMap (fun a b hab => ?_) h
  obtain ⟨k, v⟩ := a
  obtain ⟨k', w⟩ := b
  obtain ⟨rfl, hv⟩ : k = k' ∧ (k ≠ .string g → v = w) := hab
  by_cases hk : k = .string g
  · subst hk
    simp only [EntryRole.of_isGeneric hg]
    exact .some ⟨rfl, fun hne => absurd rfl hne⟩
  · rw [hv hk]
    rcases EntryRole.of table k w with name | _ | ⟨_, _⟩ | _
    · exact .some ⟨rfl, fun _ => rfl⟩
    all_goals exact .none

end Splitting

section Issues

/-- The issues of all names but one. -/
def issuesBut (g : String) (found : List FoundIssue) : List FoundIssue :=
  found.filter fun e => e.1 ≠ g

theorem issuesBut_unreadEntries (g : String) (values : Table Value) (names : List String) :
    issuesBut g (unreadEntries values names) =
      unreadEntries values (names.filter fun n => n ≠ g) := by
  rw [issuesBut, unreadEntries, unreadEntries, List.filter_filterMap, List.filterMap_filter]
  refine List.filterMap_congr fun n _ => ?_
  rcases unread? values n with _ | issue
  · simp
  · by_cases hn : n = g <;> simp [hn]

/-- What a log holds for a name does not depend on the issues of another one. -/
theorem get?_failAll_issuesBut {n : String} (hn : n ≠ g) (log : Issues)
    (found : List FoundIssue) : (log.failAll (issuesBut g found)).failed.get? n =
      (log.failAll found).failed.get? n := by
  rw [Issues.get?_failAll_reverse, Issues.get?_failAll_reverse, issuesBut, ← List.filter_reverse,
    entryFor?_filter_ne, if_neg hn.symm]

end Issues

/-- Profiles that are equal but for one generic section. -/
structure Profile.EqualBut (g : String) (p q : Profile) : Prop where
  rest : q = { p with generic := q.generic }
  generic : ∀ n ≠ g, p.generic.get? n = q.generic.get? n

namespace Profile.EqualBut

variable {p q : Profile}

/-- Anchoring files and expanding sources treats each generic section by itself. -/
theorem settled (h : p.EqualBut g q) (home? : Option String) (root : String)
    (find : String → List String) :
    ((p.anchor home? root).expandSources find).EqualBut g
      ((q.anchor home? root).expandSources find) where
  rest := by
    rw [h.rest]
    rfl
  generic n hn := by
    show (p.generic.map _).get? n = (q.generic.map _).get? n
    rw [Table.get?_map, Table.get?_map, h.generic n hn]

theorem commandFlags_eq (h : p.EqualBut g q) {command : String} (hc : command ≠ g)
    (s : Surroundings) (rt : Runtime) :
    p.commandFlags s rt command = q.commandFlags s rt command := by
  have hgeneric : p.generic? command = q.generic? command := by
    rw [generic?, generic?, h.generic command hc]
  unfold commandFlags
  rw [hgeneric, h.rest]
  rcases rt.table.kindOf? command with _ | _ | _ | _ | _ | _ | _ | _ | _ <;> rfl

theorem commandChanges_eq (h : p.EqualBut g q) (s : Surroundings) (rt : Runtime)
    (command : String) : p.commandChanges s rt command = q.commandChanges s rt command := by
  rw [h.rest]
  rfl

theorem retentionFlags_eq (h : p.EqualBut g q) (s : Surroundings) (rt : Runtime) :
    p.retentionFlags s rt = q.retentionFlags s rt := by
  rw [h.rest]
  rfl

theorem copyInitFlags?_eq (h : p.EqualBut g q) (rt : Runtime) :
    p.copyInitFlags? rt = q.copyInitFlags? rt := by
  rw [h.rest]
  rfl

end Profile.EqualBut

/-- The same error, or profiles that are equal but for one generic section. -/
inductive AlikeBut (g : String) {ε : Type} : Except ε Profile → Except ε Profile → Prop
  | failed (e : ε) : AlikeBut g (.error e) (.error e)
  | read {p q : Profile} (h : p.EqualBut g q) : AlikeBut g (.ok p) (.ok q)

theorem AlikeBut.mapError_map {ε ε' : Type} {r r' : Except ε Profile} {f f' : Profile → Profile}
    (h : AlikeBut g r r') (wrap : ε → ε')
    (hf : ∀ p q : Profile, p.EqualBut g q → (f p).EqualBut g (f' q)) :
    AlikeBut g ((r.mapError wrap).map f) ((r'.mapError wrap).map f') := by
  cases h with
  | failed e => exact .failed (wrap e)
  | read hpq => exact .read (hf _ _ hpq)

/-- Bodies that agree but for a generic section are read to profiles that do. -/
theorem decode_agreeBut (hg : builtin.isGeneric g = true) (h : AgreeBut (.string g) body other)
    (name : String) :
    AlikeBut g (decode .builtin name body).result (decode .builtin name other).result ∧
      issuesBut g (decode .builtin name body).issues =
        issuesBut g (decode .builtin name other).issues := by
  have hkept := keptEntries_agreeBut hg h
  have hrefused := refusedEntries_agreeBut hg h
  have hvalues : ∀ n ≠ g, (genericEntries .builtin body).get? n =
      (genericEntries .builtin other).get? n := fun n => get?_genericEntries_agreeBut hg h
  rcases hread : Profile.readBody (.mapping (keptEntries .builtin body)) with f | p
  · rw [decode_of_fault hread, decode_of_fault (hkept ▸ hread), hrefused]
    exact ⟨.failed f, rfl⟩
  · rw [decode_of_read nodup_genericNames_builtin hread,
      decode_of_read nodup_genericNames_builtin (hkept ▸ hread), hrefused]
    refine ⟨.read ⟨rfl, fun n hn => ?_⟩, ?_⟩
    · rw [Table.get?_ofList_map,
        Table.get?_ofList_map, hvalues n hn]
    · rw [issuesBut, issuesBut, List.filter_append, List.filter_append]
      refine congrArg _ ?_
      rw [← issuesBut, ← issuesBut, issuesBut_unreadEntries, issuesBut_unreadEntries]
      refine List.filterMap_congr fun n hn => ?_
      rw [unread?, unread?, hvalues n (by simpa using (List.mem_filter.1 hn).2)]

/-- A value under one key in the body of one profile. -/
def Document.putSection (d : Document) (profile g : String) (v : Value) : Document :=
  d.reviseBodies [profile] fun body => body.insert (.string g) v

namespace Config

variable {d : Document} {profile file name : String} {v w : Value}

theorem parentName?_insert (hg : builtin.isGeneric g = true) (body : Mapping) (v : Value) :
    parentName? (body.insert (.string g) v) = parentName? body := by
  have hne : Value.string g ≠ .string "inherit" := by
    rintro ⟨⟩
    exact absurd hg (by decide)
  rw [parentName?, parentName?, Mapping.get?_insert, if_neg (mt Value.sameKey_string.1 hne)]

/-- Merged bodies agree but for the section, in whatever body of the chain it was put. -/
theorem mergedBody_putSection (hg : builtin.isGeneric g = true) (d : Document)
    (profile file name : String) (v w : Value) :
    (∃ e, mergedBody (ofDocument (d.putSection profile g v) file).profiles name = .error e ∧
      mergedBody (ofDocument (d.putSection profile g w) file).profiles name = .error e) ∨
    ∃ body other, mergedBody (ofDocument (d.putSection profile g v) file).profiles name = .ok body ∧
      mergedBody (ofDocument (d.putSection profile g w) file).profiles name = .ok other ∧
      AgreeBut (.string g) body other := by
  have hwalk := fun v => ancestry_revise (fun body => parentName?_insert hg body v) d [profile]
    file name
  simp only [Document.putSection, mergedBody, hwalk]
  rcases ancestry (ofDocument d file).profiles name with e | layers
  · exact Or.inl ⟨e, rfl, rfl⟩
  · refine Or.inr ⟨_, _, rfl, rfl, mergeLayers_agreeBut (Marker.ofKey?_of_isGeneric hg) ?_⟩
    refine List.forall₂_map_left_iff.2 (List.forall₂_map_right_iff.2 ?_)
    refine List.forall₂_same.2 fun layer _ => ?_
    rw [Layer.revise, Layer.revise]
    split
    · exact (AgreeBut.refl _ layer.body).insert fun hne => absurd rfl hne
    · exact .refl _ layer.body

/-- Resolutions that differ in nothing but one generic section. -/
structure Resolved.EqualBut (g : String) (r r' : Resolved) : Prop where
  result : AlikeBut g r.result r'.result
  failed : ∀ (log : Issues) (n : String), n ≠ g →
    (log.failAll r.issues).failed.get? n = (log.failAll r'.issues).failed.get? n
  changed : ∀ log : Issues, (log.failAll r.issues).changed = (log.failAll r'.issues).changed
  flags : ∀ p q, r.result = .ok p → r'.result = .ok q → ∀ (s : Surroundings) (rt : Runtime),
    p.retentionFlags s rt = q.retentionFlags s rt ∧ p.copyInitFlags? rt = q.copyInitFlags? rt ∧
      ∀ command, command ≠ g → p.commandFlags s rt command = q.commandFlags s rt command ∧
        p.commandChanges s rt command = q.commandChanges s rt command

theorem Resolved.EqualBut.of_issuesBut {r r' : Resolved}
    (hresult : AlikeBut g r.result r'.result)
    (hissues : issuesBut g r.issues = issuesBut g r'.issues) : r.EqualBut g r' where
  result := hresult
  failed log n hn := by
    rw [← get?_failAll_issuesBut hn, hissues, get?_failAll_issuesBut hn]
  changed log := by rw [Issues.changed_failAll, Issues.changed_failAll]
  flags p q hp hq s rt := by
    rw [hp, hq] at hresult
    obtain ⟨-⟩ | ⟨h⟩ := hresult
    exact ⟨h.retentionFlags_eq s rt, h.copyInitFlags?_eq rt, fun command hc =>
      ⟨h.commandFlags_eq hc s rt, h.commandChanges_eq s rt command⟩⟩

/-- Whatever stands under a generic command in the body of a profile, every profile resolves alike,
the heirs of that one too: to the same error, or to profiles that are equal but for that section.
The issues of all other names are the same, and so are the flags of every other command, of the
retention section and of the creation of a copy's destination. -/
theorem resolve_contained (hg : builtin.isGeneric g = true) (d : Document)
    (profile : String) (v w : Value) (file : String) (s : Surroundings) (name : String) :
    (ofDocument (d.putSection profile g v) file).runtime =
      (ofDocument (d.putSection profile g w) file).runtime ∧
    ((ofDocument (d.putSection profile g v) file).resolve s name).EqualBut g
      ((ofDocument (d.putSection profile g w) file).resolve s name) := by
  have hlayout : (ofDocument (d.putSection profile g v) file).layout =
      (ofDocument (d.putSection profile g w) file).layout := by
    rw [Document.putSection, Document.putSection, layout_reviseBodies, layout_reviseBodies]
  refine ⟨by rw [runtime, runtime, hlayout]; rfl, ?_⟩
  obtain ⟨e, hv, hw⟩ | ⟨body, other, hv, hw, hbodies⟩ :=
    mergedBody_putSection hg d profile file name v w
  · rw [resolve, resolve, hv, hw]
    exact .of_issuesBut (.failed e) rfl
  · obtain ⟨hread, hissues⟩ := decode_agreeBut hg hbodies name
    rw [resolve_of_mergedBody hv, resolve_of_mergedBody hw]
    exact .of_issuesBut (hread.mapError_map _ fun p q h => h.settled ..) hissues

/-- A profile with a parent. -/
def parented : Document := ⟨[
  (.string "root", .mapping [(.string "quiet", .bool true)]),
  (.string "child", .mapping [(.string "inherit", .string "root")])]⟩

theorem ancestry_parented (v : Value) :
    ancestry (ofDocument (parented.putSection "root" "ls" v) "").profiles "child" =
      .ok [⟨"child", [(.string "inherit", .string "root")]⟩,
        ⟨"root", [(.string "quiet", .bool true), (.string "ls", v)]⟩] := by
  have hroot : (ofDocument parented "").profiles = parented.root := by decide
  have hparent : parentName? [(.string "inherit", .string "root")] = some "root" := by decide
  rw [Document.putSection, ancestry_revise fun body => parentName?_insert (by decide) body v, hroot,
    ancestry, ancestryFrom_parent (by decide) rfl rfl hparent,
    ancestryFrom_last (by decide) rfl rfl (by decide)]
  rfl

/-- A section of the parent that cannot be read, against one that can. -/
theorem resolve_contained_parented : builtin.isGeneric "ls" = true ∧
    ((ofDocument (parented.putSection "root" "ls" (.number (.int 1))) "").resolve default
      "child").EqualBut "ls"
    ((ofDocument (parented.putSection "root" "ls" (.mapping [])) "").resolve default "child") ∧
    ((ofDocument (parented.putSection "root" "ls" (.number (.int 1))) "").resolve default
      "child").issues = [("ls", .notMap .number)] ∧
    ((ofDocument (parented.putSection "root" "ls" (.mapping [])) "").resolve default
      "child").issues = [] := by
  refine ⟨by decide, (resolve_contained (by decide) parented "root" _ _ "" default "child").2,
    ?_, ?_⟩ <;> rw [resolve, mergedBody_of_ancestry (ancestry_parented _)] <;> rfl

end Config

end BackupProfiles
