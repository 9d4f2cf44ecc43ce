import BackupProfiles.Profile.Anchor
import BackupProfiles.Profile.Describe
import BackupProfiles.Proofs.Path.Anchored
import BackupProfiles.Proofs.Secrets.Sections

/-!
# Showing profiles

What is shown and described of a profile depends on its secrets only through whether they are empty
(`Profile.shown_hide`, `Profile.describe_hide`). Anchoring, which rewrites the secrets that name
files, empties none and leaves an empty one empty, so profiles whose secrets are hidden alike are
still so once they are anchored (`Profile.hide_located`).
-/

namespace BackupProfiles

variable {α β : Type} {f : Anchoring}

/-- An anchoring that takes nothing, and only nothing, to nothing. -/
def Anchoring.KeepsEmpty (f : Anchoring) : Prop := ∀ s, f s = "" ↔ s = ""

theorem keepsEmpty_anchored (home? : Option String) (root : String) :
    Anchoring.KeepsEmpty (Path.anchored home? root) := fun _ => Path.anchored_eq_empty_iff

theorem Table.map_map_of_eq {g h : α → α} (hg : ∀ a, g (h a) = g a) (t : Table α) :
    (t.map h).map g = t.map g := by
  refine ext_entries ?_
  show (t.entries.map fun e => (e.1, h e.2)).map (fun e => (e.1, g e.2)) = t.entries.map _
  simp only [List.map_map, Function.comp_def, hg]

section Anchored

theorem Secret.redacted_congr {s t : Secret} (h : s.reveal = "" ↔ t.reveal = "") :
    s.redacted = t.redacted := by
  unfold redacted isEmpty
  by_cases hs : s.reveal = ""
  · simp [hs, h.1 hs]
  · have ht : t.reveal ≠ "" := fun ht => hs (h.2 ht)
    simp [hs, ht]

theorem Secret.hidden_map (hf : f.KeepsEmpty) (s : Secret) :
    (s.hidden.map f).hidden = (s.map f).hidden := by
  refine congrArg mk (redacted_congr ?_)
  show f s.redacted = "" ↔ f s.reveal = ""
  rw [hf, hf, redacted_eq_empty_iff]

@[simp]
theorem Header.hide_hide (h : Header) : h.hide.hide = h.hide := by
  simp [hide]

@[simp]
theorem Call.hide_hide (c : Call) : c.hide.hide = c.hide := by
  simp [hide]

theorem Hooks.hide_hide (h : Hooks) : h.hide.hide = h.hide := by
  simp [hide, map]

theorem Hooks.hide_anchor (f : Anchoring) (h : Hooks) :
    (h.hide.anchor f).hide = (h.anchor f).hide := by
  have hcall : ∀ c : Call, ((c.hide.anchor f).hide) = (c.anchor f).hide := by
    intro c
    simp [Call.hide, Call.anchor]
  simp [hide, anchor, map, hcall]

theorem BackupSection.hide_anchor (f : Anchoring) (b : BackupSection) :
    (b.hide.anchor f).hide = (b.anchor f).hide := by
  simp only [hide, anchor, Hooks.hide_anchor]

theorem ScheduledSection.hide_anchor (f : Anchoring) (s : ScheduledSection) :
    (s.hide.anchor f).hide = (s.anchor f).hide := by
  simp only [hide, anchor, Hooks.hide_anchor]

theorem CopySection.hide_anchor (hf : f.KeepsEmpty) (c : CopySection) :
    (c.hide.anchor f).hide = (c.anchor f).hide := by
  simp only [hide, anchor, Hooks.hide_anchor, Secret.hidden_hidden, Secret.hidden_map hf]

theorem InitSection.hide_anchor (hf : f.KeepsEmpty) (i : InitSection) :
    (i.hide.anchor f).hide = (i.anchor f).hide := by
  simp only [hide, anchor, Secret.hidden_hidden, Secret.hidden_map hf]

namespace Profile

theorem hide_anchorWith (hf : f.KeepsEmpty) (p : Profile) :
    (p.hide.anchorWith f).hide = (p.anchorWith f).hide := by
  simp only [hide, anchorWith, Option.map_map, Function.comp_def, Secret.hidden_hidden,
    Secret.hidden_map hf, BackupSection.hide_anchor, ScheduledSection.hide_anchor,
    CopySection.hide_anchor hf, InitSection.hide_anchor hf,
    Table.map_map_of_eq Secret.hidden_hidden]

theorem hide_expandSources (find : String → List String) (p : Profile) :
    (p.hide.expandSources find).hide = (p.expandSources find).hide := by
  have hbackup : ∀ b : BackupSection, (b.hide.expand find).hide = (b.expand find).hide := by
    intro b
    simp only [BackupSection.hide, BackupSection.expand, Hooks.hide_hide]
  have hscheduled : ∀ s : ScheduledSection, s.hide.hide = s.hide := by
    intro s
    simp only [ScheduledSection.hide, Hooks.hide_hide]
  have hcopy : ∀ c : CopySection, c.hide.hide = c.hide := by
    intro c
    simp only [CopySection.hide, Hooks.hide_hide, Secret.hidden_hidden]
  have hinit : ∀ i : InitSection, i.hide.hide = i.hide := by
    intro i
    simp only [InitSection.hide, Secret.hidden_hidden]
  simp only [hide, expandSources, Option.map_map, Function.comp_def, Secret.hidden_hidden, hbackup,
    hscheduled, hcopy, hinit, Table.map_map_of_eq Secret.hidden_hidden]

/-- Profiles with the same secrets hidden still have them hidden alike once their files are
anchored and their sources expanded. -/
theorem hide_located {p q : Profile} (hf : f.KeepsEmpty) (find : String → List String)
    (h : p.hide = q.hide) :
    ((p.anchorWith f).expandSources find).hide = ((q.anchorWith f).expandSources find).hide := by
  rw [← hide_expandSources, ← hide_anchorWith hf, h, hide_anchorWith hf, hide_expandSources]

end Profile

end Anchored

section Texts

/-! A text that is made of a secret is made of its redaction. -/

@[simp]
theorem Written.secret_hidden (s : Secret) : Written.secret s.hidden = Written.secret s :=
  congrArg Value.string s.redacted_hidden

@[simp]
theorem Secret.describe_hidden (s : Secret) : s.hidden.describe = s.describe := by
  unfold describe
  rw [redacted_hidden]

theorem Written.optional_map {write : α → Value} {g : α → α} (h : ∀ a, write (g a) = write a)
    (a? : Option α) : Written.optional write (a?.map g) = Written.optional write a? := by
  cases a? with
  | none => rfl
  | some a => exact h a

theorem Describe.optional_map {write : α → String} {g : α → α} (h : ∀ a, write (g a) = write a)
    (a? : Option α) : Describe.optional write (a?.map g) = Describe.optional write a? := by
  cases a? with
  | none => rfl
  | some a => exact congrArg (fun text => "Some(" ++ text ++ ")") (h a)

theorem Written.table_map {write : α → Value} {g : α → α} (h : ∀ a, write (g a) = write a)
    (t : Table α) : Written.table write (t.map g) = Written.table write t := by
  simp [Written.table, Table.map, Table.mapEntries, Function.comp_def, h]

theorem Describe.table_map {write : α → String} {g : α → α} (h : ∀ a, write (g a) = write a)
    (t : Table α) : Describe.table write (t.map g) = Describe.table write t := by
  simp [Describe.table, Table.map, Table.mapEntries, Function.comp_def, h]

theorem Describe.list_map {write : α → String} {g : α → α} (h : ∀ a, write (g a) = write a)
    (items : List α) : Describe.list write (items.map g) = Describe.list write items := by
  simp [Describe.list, Function.comp_def, h]

@[simp]
theorem Call.toValue_hide (c : Call) : c.hide.toValue = c.toValue := by
  have hheader : ∀ h : Header, h.hide.toValue = h.toValue := by
    intro h
    simp [Header.hide, Header.toValue]
  simp [hide, toValue, Function.comp_def, hheader]

@[simp]
theorem Call.describe_hide (c : Call) : c.hide.describe = c.describe := by
  have hheader : ∀ h : Header, h.hide.describe = h.describe := by
    intro h
    simp [Header.hide, Header.describe]
  simp [hide, describe, Describe.list_map hheader]

@[simp]
theorem Hooks.fields_hide (h : Hooks) : h.hide.fields = h.fields := by
  simp [hide, map, fields, Function.comp_def]

@[simp]
theorem Hooks.describe_hide (h : Hooks) : h.hide.describe = h.describe := by
  simp [hide, map, describe, Describe.list_map Call.describe_hide]

theorem BackupSection.toValue_hide (b : BackupSection) : b.hide.toValue = b.toValue := by
  simp [hide, toValue, fields]

theorem BackupSection.describe_hide (b : BackupSection) : b.hide.describe = b.describe := by
  simp [hide, describe]

theorem ScheduledSection.toValue_hide (s : ScheduledSection) : s.hide.toValue = s.toValue := by
  simp [hide, toValue]

theorem ScheduledSection.describe_hide (s : ScheduledSection) : s.hide.describe = s.describe := by
  simp [hide, describe]

theorem CopySection.toValue_hide (c : CopySection) : c.hide.toValue = c.toValue := by
  simp [hide, toValue, fields]

theorem CopySection.describe_hide (c : CopySection) : c.hide.describe = c.describe := by
  simp [hide, describe]

theorem InitSection.toValue_hide (i : InitSection) : i.hide.toValue = i.toValue := by
  simp [hide, toValue, fields]

theorem InitSection.describe_hide (i : InitSection) : i.hide.describe = i.describe := by
  simp [hide, describe]

theorem Profile.shown_hide (p : Profile) : p.hide.shown = p.shown := by
  have hfields : p.hide.fields = p.fields := by
    simp only [fields, hide, Written.secret_hidden, Written.table_map Written.secret_hidden,
      Written.optional_map BackupSection.toValue_hide,
      Written.optional_map ScheduledSection.toValue_hide,
      Written.optional_map CopySection.toValue_hide, Written.optional_map InitSection.toValue_hide]
  unfold shown toMapping
  rw [hfields]
  rfl

theorem Profile.describe_hide (runtimeText : String) (p : Profile) :
    p.hide.describe runtimeText = p.describe runtimeText := by
  simp only [describe, hide, Secret.describe_hidden, Describe.table_map Secret.describe_hidden,
    Describe.optional_map BackupSection.describe_hide,
    Describe.optional_map ScheduledSection.describe_hide,
    Describe.optional_map CopySection.describe_hide,
    Describe.optional_map InitSection.describe_hide]

end Texts

end BackupProfiles
