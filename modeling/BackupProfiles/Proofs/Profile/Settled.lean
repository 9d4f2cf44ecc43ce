import BackupProfiles.Proofs.Profile.Anchor
import Mathlib.Data.List.Forall2

/-!
# Settled profiles

`Profile.Rewritten r p q` says which settings of a profile are files: `q` has texts for them that
`r` relates to those of `p`, and is equal to `p` otherwise. Anchoring rewrites just these settings
(`Profile.rewritten_anchorWith`). Under an absolute root each of them comes out settled: no root
changes it any more (`Path.Settles.anchored_eq`), so one anchoring is enough for the whole profile
(`Profile.anchor_settles`).
-/

namespace BackupProfiles

namespace Path

variable {home? : Option String} {root setting before after : String}

/-- Whether a setting is the home folder or something in it. -/
def InHome (setting : String) : Prop := setting = "~" ∨ ∃ rest, setting = "~/" ++ rest

theorem inHome_of_afterHome? {rest : String} (h : afterHome? setting = some rest) :
    InHome setting := by
  unfold afterHome? at h
  split at h
  · rename_i hs
    exact Or.inl (String.toList_inj.1 hs)
  · rename_i tail hs
    exact Or.inr ⟨String.ofList tail, String.toList_inj.1 (by simp [hs])⟩
  · cases h

/-- What is left of a setting to do for later roots: nothing, as it is absolute, was empty, or is in
a home folder that is not known. An absolute setting stays as it was. -/
structure Settles (home? : Option String) (before after : String) : Prop where
  settled : isAbsoluteText after = true ∨ (before = "" ∧ after = "") ∨
    (home? = none ∧ InHome before ∧ after = before)
  kept : isAbsoluteText before = true → after = before

theorem anchored_of_unknown_home (h : InHome setting) : anchored none root setting = setting := by
  have hrest : ∃ rest, afterHome? setting = some rest := by
    rcases h with rfl | ⟨rest, rfl⟩
    · exact ⟨"", by decide⟩
    · refine ⟨String.ofList (rest.toList.dropWhile (· == '/')), ?_⟩
      rw [afterHome?, String.toList_append]
      rfl
  obtain ⟨rest, hr⟩ := hrest
  rcases anchored_cases none root setting with ⟨heq, -⟩ | ⟨_, _, hhome, -, -⟩ | ⟨-, -, hnone, -⟩
  · exact heq
  · cases hhome
  · rw [hr] at hnone
    cases hnone

theorem settles_anchored (hh : ∀ home ∈ home?, isAbsoluteText home = true)
    (hroot : isAbsoluteText root = true) (setting : String) :
    Settles home? setting (anchored home? root setting) := by
  refine ⟨?_, anchored_of_absolute⟩
  rcases isAbsoluteText_anchored hh hroot setting with h | h | ⟨rfl, rest, hr⟩
  · exact Or.inl h
  · exact Or.inr (Or.inl ⟨h, anchored_eq_empty_iff.2 h⟩)
  · have hhome := inHome_of_afterHome? hr
    exact Or.inr (Or.inr ⟨rfl, hhome, anchored_of_unknown_home hhome⟩)

/-- No root changes a settled setting. -/
theorem Settles.anchored_eq (h : Settles home? before after) (root : String) :
    anchored home? root after = after := by
  rcases h.settled with h | ⟨-, rfl⟩ | ⟨rfl, hhome, rfl⟩
  · exact anchored_of_absolute h
  · exact anchored_eq_empty_iff.2 rfl
  · exact anchored_of_unknown_home hhome

end Path

section Rewritten

variable (r : String → String → Prop)

/-- The texts of file flags are rewritten, and nothing else is. -/
def FlagValue.Rewritten (name : String) (x y : FlagValue) : Prop :=
  (name ∈ fileFlags ∧ ∃ s t, x = .text s ∧ y = .text t ∧ r s t) ∨
    (¬ (name ∈ fileFlags ∧ ∃ s, x = .text s) ∧ y = x)

/-- The flags of the same names, each rewritten by its name. -/
def FlagsRewritten (flags others : Table FlagValue) : Prop :=
  ∀ name, Option.Rel (FlagValue.Rewritten r name) (flags.get? name) (others.get? name)

structure Call.Rewritten (c d : Call) : Prop where
  bodyTemplate : r c.bodyTemplate d.bodyTemplate
  rest : d = { c with bodyTemplate := d.bodyTemplate }

structure Hooks.Rewritten (h k : Hooks) : Prop where
  before : List.Forall₂ (Call.Rewritten r) h.before k.before
  after : List.Forall₂ (Call.Rewritten r) h.after k.after
  afterFail : List.Forall₂ (Call.Rewritten r) h.afterFail k.afterFail
  atEnd : List.Forall₂ (Call.Rewritten r) h.atEnd k.atEnd

structure BackupSection.Rewritten (b c : BackupSection) : Prop where
  excludeFile : List.Forall₂ r b.excludeFile c.excludeFile
  filesFrom : List.Forall₂ r b.filesFrom c.filesFrom
  hooks : b.hooks.Rewritten r c.hooks
  flags : FlagsRewritten r b.flags c.flags
  rest : c = { b with
    excludeFile := c.excludeFile, filesFrom := c.filesFrom, hooks := c.hooks, flags := c.flags }

structure RetentionSection.Rewritten (a b : RetentionSection) : Prop where
  flags : FlagsRewritten r a.flags b.flags
  rest : b = { a with flags := b.flags }

structure ScheduledSection.Rewritten (a b : ScheduledSection) : Prop where
  hooks : a.hooks.Rewritten r b.hooks
  flags : FlagsRewritten r a.flags b.flags
  rest : b = { a with hooks := b.hooks, flags := b.flags }

structure CopySection.Rewritten (a b : CopySection) : Prop where
  repositoryFile : r a.repositoryFile b.repositoryFile
  passwordFile : r a.passwordFile.reveal b.passwordFile.reveal
  hooks : a.hooks.Rewritten r b.hooks
  flags : FlagsRewritten r a.flags b.flags
  rest : b = { a with
    repositoryFile := b.repositoryFile, passwordFile := b.passwordFile, hooks := b.hooks,
    flags := b.flags }

structure InitSection.Rewritten (a b : InitSection) : Prop where
  fromRepositoryFile : r a.fromRepositoryFile b.fromRepositoryFile
  fromPasswordFile : r a.fromPasswordFile.reveal b.fromPasswordFile.reveal
  flags : FlagsRewritten r a.flags b.flags
  rest : b = { a with
    fromRepositoryFile := b.fromRepositoryFile, fromPasswordFile := b.fromPasswordFile,
    flags := b.flags }

structure GenericSection.Rewritten (a b : GenericSection) : Prop where
  flags : FlagsRewritten r a.flags b.flags
  rest : b = { a with flags := b.flags }

/-- The file settings of a profile are rewritten, and nothing else is. -/
structure Profile.Rewritten (p q : Profile) : Prop where
  lock : r p.lock q.lock
  statusFile : r p.statusFile q.statusFile
  repositoryFile : r p.repositoryFile q.repositoryFile
  passwordFile : r p.passwordFile.reveal q.passwordFile.reveal
  caCert : r p.caCert q.caCert
  tlsClientCert : r p.tlsClientCert q.tlsClientCert
  backup : Option.Rel (BackupSection.Rewritten r) p.backup? q.backup?
  retention : Option.Rel (RetentionSection.Rewritten r) p.retention? q.retention?
  check : Option.Rel (ScheduledSection.Rewritten r) p.check? q.check?
  prune : Option.Rel (ScheduledSection.Rewritten r) p.prune? q.prune?
  forget : Option.Rel (ScheduledSection.Rewritten r) p.forget? q.forget?
  copy : Option.Rel (CopySection.Rewritten r) p.copy? q.copy?
  init : Option.Rel (InitSection.Rewritten r) p.init? q.init?
  generic : ∀ name, Option.Rel (Option.Rel (GenericSection.Rewritten r)) (p.generic.get? name)
    (q.generic.get? name)
  flags : FlagsRewritten r p.flags q.flags
  rest : q = { p with
    lock := q.lock, statusFile := q.statusFile, repositoryFile := q.repositoryFile,
    passwordFile := q.passwordFile, caCert := q.caCert, tlsClientCert := q.tlsClientCert,
    backup? := q.backup?, retention? := q.retention?, check? := q.check?, prune? := q.prune?,
    forget? := q.forget?, copy? := q.copy?, init? := q.init?, generic := q.generic,
    flags := q.flags }

end Rewritten

section Anchored

variable {r : String → String → Prop} {f : Anchoring}

theorem rel_map_self {α : Type} {q : α → α → Prop} {g : α → α} (h : ∀ a, q a (g a)) :
    ∀ a? : Option α, Option.Rel q a? (a?.map g)
  | none => .none
  | some a => .some (h a)

theorem forall₂_map_self {α : Type} {q : α → α → Prop} {g : α → α} (h : ∀ a, q a (g a))
    (items : List α) : List.Forall₂ q items (items.map g) :=
  List.forall₂_map_right_iff.2 (List.forall₂_same.2 fun a _ => h a)

variable (hf : ∀ setting, r setting (f setting))
include hf

theorem flagsRewritten_anchorFlags (flags : Table FlagValue) :
    FlagsRewritten r flags (anchorFlags f flags) := by
  intro name
  rw [anchorFlags, Table.get?_mapEntries]
  refine rel_map_self (fun x => ?_) _
  by_cases hn : name ∈ fileFlags
  · rw [if_pos (by simpa using hn)]
    cases x with
    | text s => exact Or.inl ⟨hn, s, f s, rfl, rfl, hf s⟩
    | _ => exact Or.inr ⟨by simp, rfl⟩
  · rw [if_neg (by simpa using hn)]
    exact Or.inr ⟨fun h => hn h.1, rfl⟩

theorem Hooks.rewritten_anchor (h : Hooks) : h.Rewritten r (h.anchor f) := by
  have hcall : ∀ c : Call, c.Rewritten r (c.anchor f) := fun c => ⟨hf c.bodyTemplate, rfl⟩
  exact ⟨forall₂_map_self hcall _, forall₂_map_self hcall _, forall₂_map_self hcall _,
    forall₂_map_self hcall _⟩

theorem BackupSection.rewritten_anchor (b : BackupSection) : b.Rewritten r (b.anchor f) where
  excludeFile := forall₂_map_self hf b.excludeFile
  filesFrom := forall₂_map_self hf b.filesFrom
  hooks := b.hooks.rewritten_anchor hf
  flags := flagsRewritten_anchorFlags hf b.flags
  rest := rfl

theorem RetentionSection.rewritten_anchor (a : RetentionSection) : a.Rewritten r (a.anchor f) :=
  ⟨flagsRewritten_anchorFlags hf a.flags, rfl⟩

theorem ScheduledSection.rewritten_anchor (s : ScheduledSection) : s.Rewritten r (s.anchor f) :=
  ⟨s.hooks.rewritten_anchor hf, flagsRewritten_anchorFlags hf s.flags, rfl⟩

theorem CopySection.rewritten_anchor (c : CopySection) : c.Rewritten r (c.anchor f) where
  repositoryFile := hf c.repositoryFile
  passwordFile := hf c.passwordFile.reveal
  hooks := c.hooks.rewritten_anchor hf
  flags := flagsRewritten_anchorFlags hf c.flags
  rest := rfl

theorem InitSection.rewritten_anchor (i : InitSection) : i.Rewritten r (i.anchor f) where
  fromRepositoryFile := hf i.fromRepositoryFile
  fromPasswordFile := hf i.fromPasswordFile.reveal
  flags := flagsRewritten_anchorFlags hf i.flags
  rest := rfl

theorem GenericSection.rewritten_anchor (g : GenericSection) : g.Rewritten r (g.anchor f) :=
  ⟨flagsRewritten_anchorFlags hf g.flags, rfl⟩

namespace Profile

/-- Anchoring rewrites file settings, whatever it makes of their texts. -/
theorem rewritten_anchorWith (p : Profile) : p.Rewritten r (p.anchorWith f) where
  lock := hf p.lock
  statusFile := hf p.statusFile
  repositoryFile := hf p.repositoryFile
  passwordFile := hf p.passwordFile.reveal
  caCert := hf p.caCert
  tlsClientCert := hf p.tlsClientCert
  backup := rel_map_self (BackupSection.rewritten_anchor hf) p.backup?
  retention := rel_map_self (RetentionSection.rewritten_anchor hf) p.retention?
  check := rel_map_self (ScheduledSection.rewritten_anchor hf) p.check?
  prune := rel_map_self (ScheduledSection.rewritten_anchor hf) p.prune?
  forget := rel_map_self (ScheduledSection.rewritten_anchor hf) p.forget?
  copy := rel_map_self (CopySection.rewritten_anchor hf) p.copy?
  init := rel_map_self (InitSection.rewritten_anchor hf) p.init?
  generic name := by
    show Option.Rel _ _ ((p.generic.map _).get? name)
    rw [Table.get?_map]
    exact rel_map_self (rel_map_self (GenericSection.rewritten_anchor hf)) _
  flags := flagsRewritten_anchorFlags hf p.flags
  rest := rfl

end Profile

end Anchored

namespace Profile

/-- An absolute root settles a profile. Every file setting comes out absolute unless it was empty or
is in an unknown home folder, and it stays as it was in these cases and if it was absolute before;
everything else in the profile stays as it was. No other root changes the profile any more. -/
theorem anchor_settles {home? : Option String} {root : String}
    (hh : ∀ home ∈ home?, Path.isAbsoluteText home = true)
    (hroot : Path.isAbsoluteText root = true) (p : Profile) :
    p.Rewritten (Path.Settles home?) (p.anchor home? root) ∧
      ∀ other, (p.anchor home? root).anchor home? other = p.anchor home? root := by
  have hsettles := Path.settles_anchored hh hroot
  refine ⟨rewritten_anchorWith hsettles p, fun other => ?_⟩
  have hcomp : Path.anchored home? other ∘ Path.anchored home? root = Path.anchored home? root :=
    funext fun setting => (hsettles setting).anchored_eq other
  rw [anchor, anchor, anchorWith_anchorWith, hcomp]

/-- A profile with a relative, an absolute and a private file setting, and one that leads up. -/
def scattered : Profile := { (default : Profile) with
  lock := "run.lock"
  statusFile := "/var/status"
  caCert := "~/ca.pem"
  generic := Table.ofList [("ls", some { GenericSection.empty with
    flags := Table.ofList [("password-file", .text "../key")] })] }

theorem anchor_settles_scattered : Path.isAbsoluteText "/etc/backup" = true ∧
    scattered.Rewritten (Path.Settles none) (scattered.anchor none "/etc/backup") ∧
    (scattered.anchor none "/etc/backup").anchor none "conf" =
      scattered.anchor none "/etc/backup" ∧
    (scattered.anchor none "/etc/backup").lock = "/etc/backup/run.lock" ∧
    (scattered.anchor none "/etc/backup").statusFile = "/var/status" ∧
    (scattered.anchor none "/etc/backup").caCert = "~/ca.pem" ∧
    (((scattered.anchor none "/etc/backup").generic? "ls").bind fun g =>
      g.flags.get? "password-file") = some (.text "/etc/key") := by
  have hroot : Path.isAbsoluteText "/etc/backup" = true := by decide
  have hhome : ∀ home ∈ (none : Option String), Path.isAbsoluteText home = true := nofun
  obtain ⟨hrewritten, htwice⟩ := anchor_settles hhome hroot scattered
  exact ⟨hroot, hrewritten, htwice "conf", by decide, by decide, by decide, by decide⟩

end Profile

end BackupProfiles
