import BackupProfiles.Profile.Basic

/-!
# Descriptions of profiles

The text of a profile in messages for developers: every field of its records by name and in order,
secrets hidden. What a profile is run with is described by a text of its own.
-/

namespace BackupProfiles

namespace Describe

variable {α : Type}

def record (name : String) (fields : List (String × String)) : String :=
  name ++ " \x7b " ++ ", ".intercalate (fields.map fun e => e.1 ++ ": " ++ e.2) ++ " \x7d"

def list (write : α → String) (items : List α) : String :=
  "[" ++ ", ".intercalate (items.map write) ++ "]"

def texts (items : List String) : String := list Text.quoted items

def optional (write : α → String) : Option α → String
  | some a => "Some(" ++ write a ++ ")"
  | none => "None"

def table (write : α → String) (t : Table α) : String :=
  "\x7b" ++ ", ".intercalate (t.entries.map fun e => Text.quoted e.1 ++ ": " ++ write e.2) ++ "\x7d"

/-- Doubles always with a point or an exponent; the exponent from `1e16` up and below `1e-4`. -/
def number : NumberStyle := ⟨.upward, true, fun p => -4 < p && p ≤ 16, "NaN", "inf"⟩

end Describe

/-- A whole part and the digits behind its point, without zeros at their end. -/
def Duration.decimalText (whole width rest : Nat) : String :=
  let places := ((Text.paddedDigits width rest).reverse.dropWhile (· == '0')).reverse
  Text.natText whole ++ (if rest = 0 then "" else String.ofList ('.' :: places))

/-- A duration in the greatest unit that it fills. -/
def Duration.describe (d : Duration) : String :=
  let n := d.nanoseconds
  if nanosecondsPerSecond ≤ n then
    decimalText (n / nanosecondsPerSecond) 9 (n % nanosecondsPerSecond) ++ "s"
  else if 1000000 ≤ n then decimalText (n / 1000000) 6 (n % 1000000) ++ "ms"
  else if 1000 ≤ n then decimalText (n / 1000) 3 (n % 1000) ++ "µs"
  else Text.natText n ++ "ns"

def FlagValue.describe : FlagValue → String
  | switch on => "Bool(" ++ Value.boolText on ++ ")"
  | integer n => "Integer(" ++ Text.intText n ++ ")"
  | float x => "Float(" ++ Describe.number.write x ++ ")"
  | text s => "String(" ++ Text.quoted s ++ ")"
  | list items => "List(" ++ Describe.texts items ++ ")"

def Timing.describe (t : Timing) : String :=
  Describe.record "ScheduleFields" [
    ("schedule", Describe.texts t.schedule),
    ("schedule_permission", Text.quoted t.permission),
    ("schedule_log", Text.quoted t.log),
    ("schedule_priority", Text.quoted t.priority),
    ("schedule_lock_mode", Text.quoted t.lockMode),
    ("schedule_lock_wait", Describe.optional Duration.describe t.lockWait?)]

def Header.describe (h : Header) : String :=
  Describe.record "SendHeader" [("name", Text.quoted h.name), ("value", h.value.describe)]

def Call.describe (c : Call) : String :=
  Describe.record "SendMonitoring" [
    ("method", Text.quoted c.method),
    ("url", c.url.describe),
    ("headers", Describe.list Header.describe c.headers),
    ("body", Text.quoted c.body),
    ("body_template", Text.quoted c.bodyTemplate),
    ("skip_tls_verification", Value.boolText c.skipsVerification)]

def Hooks.describe (h : Hooks) : String :=
  Describe.record "MonitoringFields" [
    ("send_before", Describe.list Call.describe h.before),
    ("send_after", Describe.list Call.describe h.after),
    ("send_after_fail", Describe.list Call.describe h.afterFail),
    ("send_finally", Describe.list Call.describe h.atEnd)]

def ExpandedSource.describe (e : ExpandedSource) : String :=
  Describe.record "SourceMatch" [
    ("pattern", Text.quoted e.pattern), ("paths", Describe.texts e.paths)]

def BackupSection.describe (b : BackupSection) : String :=
  Describe.record "BackupSection" [
    ("check_before", Value.boolText b.checkBefore),
    ("check_after", Value.boolText b.checkAfter),
    ("run_before", Describe.texts b.runBefore),
    ("run_after", Describe.texts b.runAfter),
    ("run_after_fail", Describe.texts b.runAfterFail),
    ("use_stdin", Value.boolText b.usesStdin),
    ("stdin_command", Describe.texts b.stdinCommand),
    ("source", Describe.texts b.source),
    ("exclude", Describe.texts b.exclude),
    ("iexclude", Describe.texts b.iexclude),
    ("exclude_file", Describe.texts b.excludeFile),
    ("files_from", Describe.texts b.filesFrom),
    ("tag", Describe.texts b.tag),
    ("resolved_source", Describe.optional (Describe.list ExpandedSource.describe) b.expansion?),
    ("schedule", b.timing.describe),
    ("monitoring", b.hooks.describe),
    ("other_flags", Describe.table FlagValue.describe b.flags)]

def Choice.describe : Choice → String
  | unset => "Unset"
  | fromBackup => "FromBackup"
  | disabled => "Disabled"
  | values items => "Values(" ++ Describe.texts items ++ ")"

def RetentionSection.describe (r : RetentionSection) : String :=
  Describe.record "RetentionSection" [
    ("before_backup", Value.boolText r.beforeBackup),
    ("after_backup", Value.boolText r.afterBackup),
    ("path", r.path.describe),
    ("tag", r.tag.describe),
    ("schedule", r.timing.describe),
    ("other_flags", Describe.table FlagValue.describe r.flags)]

def ScheduledSection.describe (s : ScheduledSection) : String :=
  Describe.record "ScheduledSection" [
    ("schedule", s.timing.describe),
    ("monitoring", s.hooks.describe),
    ("other_flags", Describe.table FlagValue.describe s.flags)]

def CopySection.describe (c : CopySection) : String :=
  Describe.record "CopySection" [
    ("initialize", Value.boolText c.creates),
    ("repository", c.repository.describe),
    ("repository_file", Text.quoted c.repositoryFile),
    ("password_file", c.passwordFile.describe),
    ("password_command", c.passwordCommand.describe),
    ("key_hint", c.keyHint.describe),
    ("schedule", c.timing.describe),
    ("monitoring", c.hooks.describe),
    ("other_flags", Describe.table FlagValue.describe c.flags)]

def InitSection.describe (i : InitSection) : String :=
  Describe.record "InitSection" [
    ("from_repository", i.fromRepository.describe),
    ("from_repository_file", Text.quoted i.fromRepositoryFile),
    ("from_password_file", i.fromPasswordFile.describe),
    ("from_password_command", i.fromPasswordCommand.describe),
    ("from_key_hint", i.fromKeyHint.describe),
    ("copy_chunker_params", Value.boolText i.copiesChunkerParams),
    ("other_flags", Describe.table FlagValue.describe i.flags)]

def GenericSection.describe (g : GenericSection) : String :=
  Describe.record "GenericSection" [
    ("run_before", Describe.texts g.runBefore),
    ("run_after", Describe.texts g.runAfter),
    ("other_flags", Describe.table FlagValue.describe g.flags)]

/-- The whole profile, with the text of what it is run with at the end. -/
def Profile.describe (runtimeText : String) (p : Profile) : String :=
  Describe.record "Profile" [
    ("name", Text.quoted p.name),
    ("description", Text.quoted p.description),
    ("inherit", Text.quoted p.inherit),
    ("initialize", Value.boolText p.creates),
    ("lock", Text.quoted p.lock),
    ("force_lock", Value.boolText p.forceLock),
    ("run_before", Describe.texts p.runBefore),
    ("run_after", Describe.texts p.runAfter),
    ("run_after_fail", Describe.texts p.runAfterFail),
    ("run_finally", Describe.texts p.runFinally),
    ("status_file", Text.quoted p.statusFile),
    ("priority", Text.quoted p.priority),
    ("env", Describe.table Secret.describe p.env),
    ("cache_dir", Text.quoted p.cacheDir),
    ("cacert", Text.quoted p.caCert),
    ("tls_client_cert", Text.quoted p.tlsClientCert),
    ("repository", p.repository.describe),
    ("repository_file", Text.quoted p.repositoryFile),
    ("password_file", p.passwordFile.describe),
    ("password_command", p.passwordCommand.describe),
    ("key_hint", p.keyHint.describe),
    ("quiet", Value.boolText p.quiet),
    ("verbose", Text.natText p.verbose),
    ("backup", Describe.optional BackupSection.describe p.backup?),
    ("retention", Describe.optional RetentionSection.describe p.retention?),
    ("check", Describe.optional ScheduledSection.describe p.check?),
    ("prune", Describe.optional ScheduledSection.describe p.prune?),
    ("forget", Describe.optional ScheduledSection.describe p.forget?),
    ("copy", Describe.optional CopySection.describe p.copy?),
    ("init", Describe.optional InitSection.describe p.init?),
    ("other_sections", Describe.table (Describe.optional GenericSection.describe) p.generic),
    ("other_flags", Describe.table FlagValue.describe p.flags),
    ("runtime", runtimeText)]

end BackupProfiles
