import BackupProfiles.Proofs.Profile.Account
import BackupProfiles.Proofs.Secrets.Calls
import BackupProfiles.Proofs.Value.KeyText

/-!
# Reading hidden sections

Sections and profiles are read blindly at their confidential positions. So a body whose secrets are
hidden first comes to the same profile, with the secrets hidden, and to the same fault or issues.
-/

namespace BackupProfiles

open Positions

variable {c : Positions} {name : String}

def BackupSection.hide (b : BackupSection) : BackupSection := { b with hooks := b.hooks.hide }

def ScheduledSection.hide (s : ScheduledSection) : ScheduledSection :=
  { s with hooks := s.hooks.hide }

def CopySection.hide (c : CopySection) : CopySection :=
  { c with
    repository := c.repository.hidden
    passwordFile := c.passwordFile.hidden
    passwordCommand := c.passwordCommand.hidden
    keyHint := c.keyHint.hidden
    hooks := c.hooks.hide }

def InitSection.hide (i : InitSection) : InitSection :=
  { i with
    fromRepository := i.fromRepository.hidden
    fromPasswordFile := i.fromPasswordFile.hidden
    fromPasswordCommand := i.fromPasswordCommand.hidden
    fromKeyHint := i.fromKeyHint.hidden }

/-- A profile with its secrets hidden. -/
def Profile.hide (p : Profile) : Profile :=
  { p with
    env := p.env.map Secret.hidden
    repository := p.repository.hidden
    passwordFile := p.passwordFile.hidden
    passwordCommand := p.passwordCommand.hidden
    keyHint := p.keyHint.hidden
    backup? := p.backup?.map BackupSection.hide
    check? := p.check?.map ScheduledSection.hide
    prune? := p.prune?.map ScheduledSection.hide
    forget? := p.forget?.map ScheduledSection.hide
    copy? := p.copy?.map CopySection.hide
    init? := p.init?.map InitSection.hide }

/-- Fields that are secrets, or behind which nothing is hidden. -/
theorem FieldChecks.blind_of_secret {g : FieldChecks}
    (h : ∀ e ∈ g, e.2 = Reader.secret.fault? ∨ c.under (.key e.1) = Positions.none) :
    g.Blind c := by
  intro e he v
  rcases h e he with hs | hn
  · rw [hs]
    exact (Reader.blind_secret _).fault?_eq v
  · rw [hn, Value.redact_none]

namespace Hooks

theorem under_moment (h : name ∈ Shape.names checks) :
    confidential.many.under (.key name) = Call.confidential.many := by
  rw [under_many_key, confidential, under_keyed, behind_moment h]

theorem under_eq_none (h : Marker.unmarked name ∉ Shape.names checks) :
    confidential.many.under (.key name) = Positions.none := by
  rw [under_many_key, confidential, under_keyed, behind, if_neg h, many_none]

theorem sparesFlags_behind (name : String) : (behind name).many.SparesFlags := by
  unfold behind
  split_ifs
  · exact ⟨rfl, fun _ => rfl⟩
  · exact ⟨rfl, fun _ => rfl⟩

theorem blind_timing : Timing.checks.Blind confidential.many :=
  FieldChecks.blind_of_none fun name hn => under_eq_none (by revert name; decide)

theorem ofEntries_timing (es : Entries) :
    Timing.ofEntries (es.redact confidential.many) = Timing.ofEntries es :=
  Timing.ofEntries_redact (fun name hn => under_eq_none (by revert name; decide)) es

end Hooks

theorem BackupSection.blind_read : read.Blind hide Hooks.confidential.many := by
  have hnone : ∀ name ∈ Shape.names shape.own,
      Hooks.confidential.many.under (.key name) = Positions.none :=
    fun name hn => Hooks.under_eq_none (by revert name; decide)
  have hfield : ∀ {α : Type} (es : Entries) (name : String) (r : Reader α) (default : α),
      name ∈ Shape.names shape.own →
      (es.redact Hooks.confidential.many).read name r default = es.read name r default :=
    fun es name r default hn => Entries.read_redact_of_none (hnone name hn) es r default
  have hflags : shape.FlagsSpared Hooks.confidential.many :=
    fun name _ => Hooks.sparesFlags_behind name
  refine Shape.blind_readOpen rfl ?_ hflags fun es => ?_
  · simp only [shape, List.forall_mem_cons]
    exact ⟨FieldChecks.blind_of_none hnone, Hooks.blind_timing,
      Hooks.blind_checks fun _ => Hooks.under_moment, by simp⟩
  · have hhooks := Hooks.ofEntries_redact (fun _ => Hooks.under_moment) es
    simp (disch := decide) only [hide, ofEntries, hfield, Hooks.ofEntries_timing, hhooks,
      Shape.flags_redact hflags]

theorem ScheduledSection.blind_read : read.Blind hide Hooks.confidential.many := by
  have hflags : shape.FlagsSpared Hooks.confidential.many :=
    fun name _ => Hooks.sparesFlags_behind name
  refine Shape.blind_readOpen rfl ?_ hflags fun es => ?_
  · simp only [shape, List.forall_mem_cons]
    exact ⟨FieldChecks.blind_of_none (by simp [Shape.names]), Hooks.blind_timing,
      Hooks.blind_checks fun _ => Hooks.under_moment, by simp⟩
  · have hhooks := Hooks.ofEntries_redact (fun _ => Hooks.under_moment) es
    simp only [hide, ofEntries, Hooks.ofEntries_timing, hhooks, Shape.flags_redact hflags]

/-- What is hidden of a secret is the same, whatever was hidden of the value it is read from. -/
theorem Entries.hidden_read_redact (c : Positions) (es : Entries) (name : String)
    (default : Secret) : ((es.redact c).read name Reader.secret default).hidden =
      (es.read name Reader.secret default).hidden :=
  read_redact (Reader.blind_secret _) es default

namespace CopySection

/-- The names of the secrets of the section. -/
def secrets : List String := ["repository", "password-file", "password-command", "key-hint"]

theorem behind_of_notMem (h : name ∉ secrets) : behind name = Hooks.behind name := by
  unfold behind
  split <;> first | rfl | exact absurd (by decide) h

theorem under_eq_none (hs : name ∉ secrets) (hm : Marker.unmarked name ∉ Shape.names Hooks.checks) :
    confidential.many.under (.key name) = Positions.none := by
  rw [under_many_key, confidential, under_keyed, behind_of_notMem hs, Hooks.behind, if_neg hm,
    many_none]

theorem under_moment (h : name ∈ Shape.names Hooks.checks) :
    confidential.many.under (.key name) = Call.confidential.many := by
  rw [under_many_key, confidential, under_keyed, behind_moment h]

theorem blind_read : read.Blind hide confidential.many := by
  have hflags : shape.FlagsSpared confidential.many := by
    intro name hn
    have hs : name ∉ secrets := fun h => hn ((by decide : secrets ⊆ shape.fieldNames) h)
    rw [under_many_key, confidential, under_keyed, behind_of_notMem hs]
    exact Hooks.sparesFlags_behind name
  have hfield : ∀ {α : Type} (es : Entries) (name : String) (r : Reader α) (default : α),
      name ∈ ["initialize", "repository-file"] →
      (es.redact confidential.many).read name r default = es.read name r default :=
    fun es name r default hn => Entries.read_redact_of_none
      (under_eq_none (by revert name; decide) (by revert name; decide)) es r default
  have htiming : ∀ name ∈ Shape.names Timing.checks,
      confidential.many.under (.key name) = Positions.none :=
    fun name hn => under_eq_none (by revert name; decide) (by revert name; decide)
  refine Shape.blind_readOpen rfl ?_ hflags fun es => ?_
  · simp only [shape, List.forall_mem_cons]
    refine ⟨FieldChecks.blind_of_secret ?_, FieldChecks.blind_of_none htiming,
      Hooks.blind_checks fun _ => under_moment, by simp⟩
    simp only [List.forall_mem_cons]
    exact ⟨Or.inr (under_eq_none (by decide) (by decide)), Or.inl trivial,
      Or.inr (under_eq_none (by decide) (by decide)), Or.inl trivial, Or.inl trivial,
      Or.inl trivial, by simp⟩
  · have hhooks := Hooks.ofEntries_redact (fun _ => under_moment) es
    simp (disch := decide) only [hide, ofEntries, hfield, Entries.hidden_read_redact,
      Timing.ofEntries_redact htiming, hhooks, Shape.flags_redact hflags]

end CopySection

namespace InitSection

/-- The names of the secrets of the section. -/
def secrets : List String :=
  ["from-repository", "from-password-file", "from-password-command", "from-key-hint"]

theorem under_eq_none (h : name ∉ secrets) :
    confidential.many.under (.key name) = Positions.none := by
  rw [under_many_key, confidential, under_keyed]
  unfold behind
  split <;> first | exact many_none | exact absurd (by decide) h

theorem blind_read : read.Blind hide confidential.many := by
  have hflags : shape.FlagsSpared confidential.many := by
    intro name hn
    have hs : name ∉ secrets := fun h => hn ((by decide : secrets ⊆ shape.fieldNames) h)
    rw [under_eq_none hs]
    exact sparesFlags_none
  have hfield : ∀ {α : Type} (es : Entries) (name : String) (r : Reader α) (default : α),
      name ∉ secrets → (es.redact confidential.many).read name r default = es.read name r default :=
    fun es name r default hn => Entries.read_redact_of_none (under_eq_none hn) es r default
  refine Shape.blind_readOpen rfl ?_ hflags fun es => ?_
  · simp only [shape, List.forall_mem_cons]
    refine ⟨FieldChecks.blind_of_secret ?_, by simp⟩
    simp only [List.forall_mem_cons]
    exact ⟨Or.inl trivial, Or.inr (under_eq_none (by decide)), Or.inl trivial, Or.inl trivial,
      Or.inl trivial, Or.inr (under_eq_none (by decide)), by simp⟩
  · simp (disch := decide) only [hide, ofEntries, hfield, Entries.hidden_read_redact,
      Shape.flags_redact hflags]

end InitSection

namespace Profile

/-- The names behind which something is confidential. -/
def confidentialNames : List String := ["repository", "password-file", "password-command",
  "key-hint", "env", "backup", "check", "prune", "forget", "copy", "init"]

theorem under_eq_none (h : name ∉ confidentialNames) :
    confidential.under (.key name) = Positions.none := by
  rw [confidential, under_keyed]
  unfold behind
  split <;> first | exact many_none | exact absurd (by decide) h

theorem blind_env : (Reader.table Reader.secret).Blind (Table.map Secret.hidden)
    (confidential.under (.key "env")) :=
  Reader.Blind.table rfl fun _ => Reader.blind_secret _

theorem blind_readBody : readBody.Blind hide confidential := by
  have hflags : shape.FlagsSpared confidential := by
    intro name hn
    have hs : name ∉ confidentialNames :=
      fun h => hn ((by decide : confidentialNames ⊆ shape.fieldNames) h)
    rw [under_eq_none hs]
    exact sparesFlags_none
  have hfield : ∀ {α : Type} (es : Entries) (name : String) (r : Reader α) (default : α),
      name ∉ confidentialNames →
      (es.redact confidential).read name r default = es.read name r default :=
    fun es name r default hn => Entries.read_redact_of_none (under_eq_none hn) es r default
  have hscheduled : ∀ name ∈ ["check", "prune", "forget"],
      (Reader.optional ScheduledSection.read).Blind (Option.map ScheduledSection.hide)
        (confidential.under (.key name)) := by
    simp only [List.forall_mem_cons]
    exact ⟨ScheduledSection.blind_read.optional, ScheduledSection.blind_read.optional,
      ScheduledSection.blind_read.optional, by simp⟩
  have hbackup : (Reader.optional BackupSection.read).Blind (Option.map BackupSection.hide)
      (confidential.under (.key "backup")) := BackupSection.blind_read.optional
  have hcopy : (Reader.optional CopySection.read).Blind (Option.map CopySection.hide)
      (confidential.under (.key "copy")) := CopySection.blind_read.optional
  have hinit : (Reader.optional InitSection.read).Blind (Option.map InitSection.hide)
      (confidential.under (.key "init")) := InitSection.blind_read.optional
  refine Shape.blind_readOpen rfl ?_ hflags fun es => ?_
  · refine List.forall_mem_cons.2 ⟨?_, by simp [shape]⟩
    simp only [FieldChecks.Blind, shape, List.forall_mem_cons]
    -- a field is a secret, a part with secrets of its own, or spared
    and_intros <;> first
      | exact fun v => (Reader.blind_secret _).fault?_eq v
      | exact fun v => blind_env.fault?_eq v
      | exact fun v => hbackup.fault?_eq v
      | exact fun v => (hscheduled _ (by decide)).fault?_eq v
      | exact fun v => hcopy.fault?_eq v
      | exact fun v => hinit.fault?_eq v
      | exact fun v => by rw [under_eq_none (by decide), Value.redact_none]
      | simp
  · simp (disch := decide) only [hide, ofEntries, hfield, Entries.hidden_read_redact,
      Entries.read_redact blind_env, Entries.read_redact hbackup, Entries.read_redact hcopy,
      Entries.read_redact hinit, Entries.read_redact (hscheduled _ _), Shape.flags_redact hflags]

end Profile

section Decode

theorem keepsRoles_redact (table : CommandTable) (c : Positions) :
    KeepsRoles table fun key v => v.redact (c.under (.key key.keyName)) := fun key v =>
  EntryRole.of_congr (FlagValue.ofValue_redact_map_unit v _) table key

theorem keptEntries_redact (table : CommandTable) (c : Positions) (body : Mapping) :
    keptEntries table (body.redact c) = (keptEntries table body).redact c :=
  keptEntries_mapValues (keepsRoles_redact table c) body

theorem refusedEntries_redact (table : CommandTable) (c : Positions) (body : Mapping) :
    refusedEntries table (body.redact c) = refusedEntries table body :=
  refusedEntries_mapValues (keepsRoles_redact table c) body

theorem notMem_confidentialNames_of_isGeneric (h : CommandTable.builtin.isGeneric name = true) :
    name ∉ Profile.confidentialNames := by
  intro hn
  have hnot : ∀ name ∈ Profile.confidentialNames, CommandTable.builtin.isGeneric name = false := by
    decide
  rw [hnot name hn] at h
  cases h

/-- Nothing is confidential in generic sections. -/
theorem genericEntries_redact (body : Mapping) :
    genericEntries .builtin (body.redact Profile.confidential) = genericEntries .builtin body := by
  have hmap : ∀ t : Table Value, t.map (fun v => v) = t :=
    fun t => Table.mapEntries_eq_self fun _ _ _ => rfl
  rw [← hmap (genericEntries .builtin body), ← hmap (genericEntries .builtin (body.redact _))]
  refine genericEntries_mapValues (keepsRoles_redact .builtin _) (fun key v n hk hg => ?_) body
  obtain rfl := Value.eq_string_of_generic hk (CommandTable.isGeneric_builtin.1 hg)
  rw [Value.keyName_string, Profile.under_eq_none (notMem_confidentialNames_of_isGeneric hg),
    Value.redact_none]

/-- Hiding the secrets of a body first makes no difference to the profile that is read once its
secrets are hidden, to the fault or to the issues. -/
theorem decode_redact (name : String) (body : Mapping) :
    (decode .builtin name (body.redact Profile.confidential)).issues =
        (decode .builtin name body).issues ∧
      (decode .builtin name (body.redact Profile.confidential)).result.map Profile.hide =
        (decode .builtin name body).result.map Profile.hide := by
  unfold decode
  rw [refusedEntries_redact, keptEntries_redact, genericEntries_redact, ← Value.redact_mapping]
  rcases Profile.blind_readBody.cases (.mapping (keptEntries .builtin body))
    with ⟨f, hr, hv⟩ | ⟨p, q, hr, hv, hpq⟩
  · rw [hr, hv]
    exact ⟨rfl, rfl⟩
  · rw [hr, hv]
    refine ⟨rfl, congrArg Except.ok ?_⟩
    simp only [Profile.hide, Profile.mk.injEq] at hpq ⊢
    simp only [hpq, and_self]

end Decode

end BackupProfiles
