import BackupProfiles.Proofs.Document.Parts
import BackupProfiles.Proofs.Secrets.Shown

/-!
# Views of a profile

What is to be seen of a resolution is the error or the profile, shown and described, and the issues.
Two documents that differ in nothing but which texts stand for their secrets have the same views
(`view_of_hidden_eq`): they have the layout, the profiles and the merged bodies of their common
hidden document as far as nothing is secret there.
-/

namespace BackupProfiles

open Positions

namespace Document

theorem confidential_nil_of_version (layout : Layout) :
    confidential layout [.key "version"] = false := by
  cases layout <;> rfl

@[simp]
theorem layout_hidden (d : Document) : d.hidden.layout = d.layout := by
  have hvalue : ∀ (c : Positions) (v? : Option Value), c [] = false →
      Layout.ofValue (v?.map (Value.redact c)) = Layout.ofValue v? := by
    intro c v? hc
    rcases v? with _ | v
    · rfl
    · cases v with
      | string s => rw [Option.map_some, Value.redact_string_of_shown hc]
      | _ => simp [Layout.ofValue, Layout.versionNumber?]
  have hget : d.hidden.get? "version" = (d.get? "version").map
      (Value.redact ((confidential d.layout).under (.key "version"))) := by
    rw [get?_version, get?_version, hidden, Mapping.get?_redact, Value.keyName_string]
  rw [layout, hget, hvalue _ _ (confidential_nil_of_version _)]
  rfl

end Document

namespace Config

variable {d d' : Document}

theorem profiles_hidden (d : Document) (file : String) : ∃ e : Positions,
    (∀ name, e.under (.key name) = Profile.confidential) ∧
      (ofDocument d.hidden file).profiles = (ofDocument d file).profiles.redact e := by
  have hlayout : (ofDocument d.hidden file).layout = d.layout := d.layout_hidden
  have hroot : (ofDocument d.hidden file).document.root =
      d.root.redact (Document.confidential d.layout) := rfl
  cases hl : d.layout with
  | flat =>
    rw [hl] at hlayout hroot
    refine ⟨Document.confidential .flat, fun name => rfl, ?_⟩
    rw [profiles_of_flat hlayout, profiles_of_flat (c := ofDocument d file) hl, hroot]
    rfl
  | nested =>
    rw [hl] at hlayout hroot
    rw [profiles_of_nested hlayout, profiles_of_nested (c := ofDocument d file) hl, hroot,
      Mapping.get?_redact]
    show ∃ e : Positions, _ ∧ _ = Mapping.redact e
      (((d.root.get? (.string "profiles")).bind fun v => v.untagged.mapping?).getD [])
    rcases d.root.get? (.string "profiles") with _ | v
    · exact ⟨Document.confidential .flat, fun name => rfl, rfl⟩
    -- the profiles may stand behind tags, which change no position that starts with a key
    · obtain ⟨e, he, -, hkey⟩ := Value.untagged_redact v
        ((Document.confidential .nested).under (.key "profiles"))
      refine ⟨e, fun name => by rw [hkey]; rfl, ?_⟩
      simp only [Option.map_some, Option.bind_some, Value.keyName_string, he,
        Value.mapping?_redact]
      rcases v.untagged.mapping? with _ | m <;> rfl

/-- Hiding the secrets of the document first makes no difference to the issues, to the error, or to
the profile once its secrets are hidden. -/
theorem resolve_hidden (d : Document) (file : String) (s : Surroundings) (name : String) :
    ((ofDocument d.hidden file).resolve s name).issues =
        ((ofDocument d file).resolve s name).issues ∧
      ((ofDocument d.hidden file).resolve s name).result.map Profile.hide =
        ((ofDocument d file).resolve s name).result.map Profile.hide := by
  obtain ⟨e, he, hprofiles⟩ := profiles_hidden d file
  have hmerged := redact_mergedBody Profile.mergeable_confidential he rfl
    (ofDocument d file).profiles name
  rw [← hprofiles] at hmerged
  unfold resolve
  rcases cases_of_map_eq hmerged with ⟨why, hr, hv⟩ | ⟨body, body', hr, hv, hbody⟩
  · rw [hr, hv]
    exact ⟨rfl, rfl⟩
  · have hissues : (decode .builtin name body).issues = (decode .builtin name body').issues := by
      rw [← (decode_redact name body).1, hbody, (decode_redact name body').1]
    have hresult : (decode .builtin name body).result.map Profile.hide =
        (decode .builtin name body').result.map Profile.hide := by
      rw [← (decode_redact name body).2, hbody, (decode_redact name body').2]
    rw [hr, hv]
    simp only [ofDocument]
    rcases cases_of_map_eq hresult with ⟨why, hp, hq⟩ | ⟨p, q, hp, hq, hpq⟩
    · rw [hp, hq]
      exact ⟨hissues, rfl⟩
    · rw [hp, hq]
      refine ⟨hissues, congrArg Except.ok ?_⟩
      exact Profile.hide_located (keepsEmpty_anchored s.home? _) (Glob.expand s) hpq

/-- The error, or the profile shown and described, and the issues after resolving a profile.
`runtimeText` describes what the profile is run with. -/
def view (c : Config) (s : Surroundings) (log : Issues) (runtimeText : Runtime → Issues → String)
    (name : String) : Except ConfigError (Value × String) × Issues :=
  let resolved := c.resolve s name
  let log := log.failAll resolved.issues
  (resolved.result.map fun p => (p.shown, p.describe (runtimeText c.runtime log)), log)

theorem view_hidden (d : Document) (file : String) (s : Surroundings) (log : Issues)
    (runtimeText : Runtime → Issues → String) (name : String) :
    (ofDocument d.hidden file).view s log runtimeText name =
      (ofDocument d file).view s log runtimeText name := by
  obtain ⟨hissues, hresult⟩ := resolve_hidden d file s name
  have hruntime : (ofDocument d.hidden file).runtime = (ofDocument d file).runtime := by
    have hlayout : (ofDocument d.hidden file).layout = (ofDocument d file).layout :=
      d.layout_hidden
    rw [runtime, hlayout]
    rfl
  unfold view
  simp only [hissues, hruntime]
  rcases cases_of_map_eq hresult with ⟨why, hp, hq⟩ | ⟨p, q, hp, hq, hpq⟩
  · rw [hp, hq]
  · have hshown : p.shown = q.shown := by rw [← p.shown_hide, hpq, q.shown_hide]
    have hdescribed : ∀ text, p.describe text = q.describe text := by
      intro text
      rw [← p.describe_hide, hpq, q.describe_hide]
    rw [hp, hq]
    simp only [Except.map, hshown, hdescribed]

/-- Documents that differ in nothing but which texts, none of them empty, stand for their secrets
have the same views of every profile. -/
theorem view_of_hidden_eq (h : d.hidden = d'.hidden) (file : String) (s : Surroundings)
    (log : Issues) (runtimeText : Runtime → Issues → String) (name : String) :
    (ofDocument d file).view s log runtimeText name =
      (ofDocument d' file).view s log runtimeText name := by
  rw [← view_hidden d, h, view_hidden d']

/-- Profiles of which `full` inherits a secret file, a variable and a call, and adds a repository
and another call. -/
def inheritingProfiles (secret : String) : Mapping := [
  (.string "base", .mapping [
    (.string "password-file", .string secret),
    (.string "env", .mapping [(.string "TOKEN", .string secret)]),
    (.string "check", .mapping [
      (.string "send-after", .mapping [(.string "url", .string secret)])])]),
  (.string "full", .mapping [
    (.string "inherit", .string "base"),
    (.string "repository", .string secret),
    (.string "check", .mapping [
      (.string "send-after...", .list [.mapping [
        (.string "url", .string secret),
        (.string "headers", .list [.mapping [
          (.string "name", .string "Token"), (.string "value", .string secret)]])]])])])]

def inheriting (secret : String) : Document := ⟨[
  (.string "version", .number (.int 2)),
  (.string "profiles", .mapping (inheritingProfiles secret))]⟩

theorem view_of_hidden_eq_inheriting :
    inheriting "/keys/first" ≠ inheriting "second" ∧
      (inheriting "/keys/first").hidden = (inheriting "second").hidden ∧
      (∃ p, ((ofDocument (inheriting "second") "").resolve default "full").result = .ok p) ∧
      (ofDocument (inheriting "/keys/first") "").view default .empty (fun _ _ => "") "full" =
        (ofDocument (inheriting "second") "").view default .empty (fun _ _ => "") "full" := by
  have hhidden : (inheriting "/keys/first").hidden = (inheriting "second").hidden := by
    decide +kernel
  have hresolve : ∃ p,
      ((ofDocument (inheriting "second") "").resolve default "full").result = .ok p := by
    have hprofiles : (ofDocument (inheriting "second") "").profiles =
        inheritingProfiles "second" := by
      decide +kernel
    have hparent : ∀ body,
        (inheritingProfiles "second").get? (.string "full") = some (.mapping body) →
          parentName? body = some "base" := by
      intro body h
      cases h
      decide
    rw [resolve, mergedBody, ancestry, hprofiles,
      ancestryFrom_parent (by decide) rfl rfl (hparent _ rfl),
      ancestryFrom_last (by decide) rfl rfl (by decide)]
    exact ⟨_, rfl⟩
  exact ⟨by decide, hhidden, hresolve,
    view_of_hidden_eq hhidden "" default .empty (fun _ _ => "") "full"⟩

end Config

end BackupProfiles
