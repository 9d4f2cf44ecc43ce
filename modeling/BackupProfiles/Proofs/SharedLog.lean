import BackupProfiles.Proofs.Issues
import Mathlib.Logic.Function.Basic

/-!
# Logs that are written and disclosed through many handles

Issues are recorded in a log, looked at and disclosed through any of its handles. A fact on a log
that a call can bring about and a call can undo holds exactly if it was brought about and not undone
since (`holds_logsAt_iff`). So a log holds what stands in its history (`Stands`): recorded, and
neither disclosed nor replaced since. Each disclosure tells exactly that, once
(`answers_of_events`).
-/

namespace BackupProfiles

/-- What a log is asked for. -/
inductive LogCall where
  | fail (name : String) (issue : SectionIssue)
  | change (description : String) (paths : List String)
  | snapshot
  | hasIssues
  | display
  deriving DecidableEq

inductive LogAnswer where
  | done
  | issues (found : Issues)
  | pending (any : Bool)
  deriving DecidableEq

/-- A call through one of the handles. -/
structure LogEvent (Handle : Type) where
  handle : Handle
  call : LogCall

namespace LogCall

def Records : LogCall → Prop
  | fail _ _ | change _ _ => True
  | _ => False

/-- Two calls that record under one name, or under one description. -/
def Replaces : LogCall → LogCall → Prop
  | fail name _, fail other _ => name = other
  | change description _, change other _ => description = other
  | _, _ => False

end LogCall

namespace Issues

/-- What a call leaves of a log, and what it answers. -/
def call (log : Issues) : LogCall → Issues × LogAnswer
  | .fail name issue => (log.fail name issue, .done)
  | .change description paths => (log.change description paths, .done)
  | .snapshot => (log, .issues log)
  | .hasIssues => (log, .pending !log.isEmpty)
  | .display => (log.disclose.2, .issues log.disclose.1)

/-- A log has what a call records. -/
def Holds (log : Issues) : LogCall → Prop
  | .fail name issue => log.failed.get? name = some issue
  | .change description paths => log.changed.get? description = some paths
  | _ => False

variable {log : Issues}

theorem not_holds_empty (r : LogCall) : ¬empty.Holds r := by
  cases r <;> simp [Holds, empty]

/-- A log has what it is told, and what it had unless that is disclosed or replaced. -/
theorem holds_call_iff (log : Issues) (c r : LogCall) : (log.call c).1.Holds r ↔
    (r.Records ∧ c = r) ∨ (¬(c = .display ∨ c.Replaces r) ∧ log.Holds r) := by
  cases c with
  | fail name issue =>
    cases r with
    | fail other issue' =>
      simp only [call, fail, Holds, Table.get?_insert, LogCall.Records, LogCall.Replaces]
      by_cases hn : name = other <;> simp [hn]
    | _ => simp [call, fail, Holds, LogCall.Records, LogCall.Replaces]
  | change description paths =>
    cases r with
    | change other paths' =>
      simp only [call, change, Holds, Table.get?_insert, LogCall.Records, LogCall.Replaces]
      by_cases hn : description = other <;> simp [hn]
    | _ => simp [call, change, Holds, LogCall.Records, LogCall.Replaces]
  | display =>
    have hempty : ¬(log.call .display).1.Holds r := not_holds_empty r
    cases r <;> simp_all [LogCall.Records]
  | snapshot | hasIssues => cases r <;> simp [call, Holds, LogCall.Records, LogCall.Replaces]

theorem isEmpty_eq_false_iff : log.isEmpty = false ↔ ∃ r, log.Holds r := by
  rw [isEmpty, Bool.and_eq_false_iff, Table.isEmpty_eq_false_iff, Table.isEmpty_eq_false_iff]
  constructor
  · rintro (⟨name, issue, h⟩ | ⟨description, paths, h⟩)
    · exact ⟨.fail name issue, h⟩
    · exact ⟨.change description paths, h⟩
  · rintro ⟨r, h⟩
    cases r with
    | fail name issue => exact Or.inl ⟨name, issue, h⟩
    | change description paths => exact Or.inr ⟨description, paths, h⟩
    | _ => cases h

/-- A log is not empty after it is told something, and stays so until it is disclosed. -/
theorem isEmpty_call_eq_false_iff (log : Issues) (c : LogCall) :
    (log.call c).1.isEmpty = false ↔ c.Records ∨ (c ≠ .display ∧ log.isEmpty = false) := by
  rw [isEmpty_eq_false_iff, isEmpty_eq_false_iff]
  simp only [holds_call_iff]
  by_cases hc : c.Records
  · exact iff_of_true ⟨c, Or.inl ⟨hc, rfl⟩⟩ (Or.inl hc)
  · have htold : ∀ r : LogCall, ¬(r.Records ∧ c = r) := by
      rintro r ⟨hr, rfl⟩
      exact hc hr
    have hreplaces : ∀ r, ¬c.Replaces r := fun r => by
      cases c <;> simp_all [LogCall.Records, LogCall.Replaces]
    simp [hc, htold, hreplaces]

end Issues

namespace SharedLog

section History

variable {Handle Log : Type} (owner : Handle → Log)

/-- A call on a log before `j` started something that no call before `j` has ended. -/
def Since (events : List (LogEvent Handle)) (log : Log)
    (starts ends : LogCall → Prop) (j : Nat) : Prop :=
  ∃ i < j, ∃ e, events[i]? = some e ∧ owner e.handle = log ∧ starts e.call ∧
    ∀ k x, i < k → k < j → events[k]? = some x → owner x.handle = log → ¬ends x.call

/-- What the event at `i` records in a log stands when those before `j` have happened: it was
neither disclosed nor replaced. -/
def Stands (events : List (LogEvent Handle)) (log : Log) (i j : Nat) : Prop :=
  i < j ∧ ∃ e, events[i]? = some e ∧ owner e.handle = log ∧ e.call.Records ∧
    ∀ k x, i < k → k < j → events[k]? = some x → owner x.handle = log →
      ¬(x.call = .display ∨ x.call.Replaces e.call)

/-- The event at `j` discloses what the event at `i` records. -/
def Discloses (events : List (LogEvent Handle)) (i j : Nat) : Prop :=
  ∃ h, events[j]? = some ⟨h, .display⟩ ∧ Stands owner events (owner h) i j

variable {owner} {events : List (LogEvent Handle)} {log : Log} {i j k : Nat} {h : Handle}

theorem since_succ_iff {starts ends : LogCall → Prop} : Since owner events log starts ends (j + 1) ↔
    (∃ e, events[j]? = some e ∧ owner e.handle = log ∧ starts e.call) ∨
      (∀ e, events[j]? = some e → owner e.handle = log → ¬ends e.call) ∧
        Since owner events log starts ends j := by
  constructor
  · rintro ⟨i, hi, e, he, hlog, hstarts, hkept⟩
    rcases Nat.lt_succ_iff_lt_or_eq.1 hi with hi | rfl
    · refine Or.inr ⟨fun x hx => hkept j x hi (by omega) hx, i, hi, e, he, hlog, hstarts, ?_⟩
      exact fun k x hik hkj => hkept k x hik (by omega)
    · exact Or.inl ⟨e, he, hlog, hstarts⟩
  · rintro (⟨e, he, hlog, hstarts⟩ | ⟨hlast, i, hi, e, he, hlog, hstarts, hkept⟩)
    · exact ⟨j, by omega, e, he, hlog, hstarts, fun k x hjk hkj => by omega⟩
    · refine ⟨i, by omega, e, he, hlog, hstarts, fun k x hik hkj hx => ?_⟩
      rcases Nat.lt_succ_iff_lt_or_eq.1 hkj with hkj | rfl
      · exact hkept k x hik hkj hx
      · exact hlast x hx

/-- A disclosure leaves nothing of an entry for a later one. -/
theorem Discloses.not_lt (hj : Discloses owner events i j) (hk : Discloses owner events i k) :
    ¬j < k := by
  intro hjk
  obtain ⟨h, hdisplay, hij, e, he, hlog, -⟩ := hj
  obtain ⟨h', -, -, e', he', hlog', -, hkept⟩ := hk
  rw [he, Option.some.injEq] at he'
  subst he'
  exact hkept j _ hij hjk hdisplay (hlog.symm.trans hlog') (Or.inl rfl)

/-- An entry is disclosed by the first disclosure after it, unless it is replaced before. -/
theorem exists_discloses {e : LogEvent Handle} (he : events[i]? = some e) (hr : e.call.Records)
    (hdisplay : events[j]? = some ⟨h, .display⟩) (hlog : owner h = owner e.handle) (hij : i < j)
    (hkept : ∀ k x, i < k → k < j → events[k]? = some x → owner x.handle = owner e.handle →
      ¬x.call.Replaces e.call) : ∃ k, Discloses owner events i k := by
  induction j using Nat.strongRecOn generalizing h with
  | _ j ih =>
    by_cases hfirst : ∀ k x, i < k → k < j → events[k]? = some x →
        owner x.handle = owner e.handle → x.call ≠ .display
    · refine ⟨j, h, hdisplay, hij, e, he, hlog.symm, hr, fun k x hik hkj hx hxlog => ?_⟩
      rw [hlog] at hxlog
      exact not_or.2 ⟨hfirst k x hik hkj hx hxlog, hkept k x hik hkj hx hxlog⟩
    · push Not at hfirst
      obtain ⟨k, ⟨handle, call⟩, hik, hkj, hx, hxlog, rfl⟩ := hfirst
      exact ih k hkj hx hxlog hik fun m x him hmk => hkept m x him (Nat.lt_trans hmk hkj)

end History

section Runs

variable {Handle Log : Type} [DecidableEq Log] (owner : Handle → Log)

/-- The logs after a call. A handle belongs to one log, and a clone of it to the same. -/
def logsAfter (logs : Log → Issues) (e : LogEvent Handle) : Log → Issues :=
  Function.update logs (owner e.handle) ((logs (owner e.handle)).call e.call).1

def answerTo (logs : Log → Issues) (e : LogEvent Handle) : LogAnswer :=
  ((logs (owner e.handle)).call e.call).2

def answersFrom (logs : Log → Issues) : List (LogEvent Handle) → List LogAnswer
  | [] => []
  | e :: rest => answerTo owner logs e :: answersFrom (logsAfter owner logs e) rest

/-- The answers to events one after the other, all logs being empty at first. -/
def answers (events : List (LogEvent Handle)) : List LogAnswer :=
  answersFrom owner (fun _ => .empty) events

/-- The logs when some events have happened. -/
def logsAt (events : List (LogEvent Handle)) (j : Nat) : Log → Issues :=
  (events.take j).foldl (logsAfter owner) fun _ => .empty

variable {owner} {events : List (LogEvent Handle)} {log : Log} {e : LogEvent Handle} {j : Nat}
  {h : Handle}

theorem getElem?_answersFrom (logs : Log → Issues) (events : List (LogEvent Handle)) (j : Nat) :
    (answersFrom owner logs events)[j]? =
      events[j]?.map (answerTo owner ((events.take j).foldl (logsAfter owner) logs)) := by
  induction events generalizing logs j with
  | nil => rfl
  | cons e rest ih =>
    cases j with
    | zero => rfl
    | succ j => exact ih _ j

theorem getElem?_answers (he : events[j]? = some e) :
    (answers owner events)[j]? = some (answerTo owner (logsAt owner events j) e) := by
  rw [answers, getElem?_answersFrom, he]
  rfl

theorem logsAt_succ (he : events[j]? = some e) :
    logsAt owner events (j + 1) = logsAfter owner (logsAt owner events j) e := by
  rw [logsAt, List.take_add_one, he, List.foldl_append]
  rfl

theorem logsAt_succ_of_none (he : events[j]? = none) :
    logsAt owner events (j + 1) = logsAt owner events j := by
  rw [logsAt, List.take_add_one, he, Option.toList_none, List.append_nil, logsAt]

/-- A fact on a log that calls start and end holds exactly if it was started and not ended since. -/
theorem holds_logsAt_iff (P : Issues → Prop) {starts ends : LogCall → Prop} (hempty : ¬P .empty)
    (hstep : ∀ log c, P (log.call c).1 ↔ starts c ∨ (¬ends c ∧ P log))
    (events : List (LogEvent Handle)) (log : Log) (j : Nat) :
    P (logsAt owner events j log) ↔ Since owner events log starts ends j := by
  induction j with
  | zero =>
    refine iff_of_false hempty ?_
    rintro ⟨i, hi, -⟩
    omega
  | succ j ih =>
    rw [since_succ_iff, ← ih]
    rcases he : events[j]? with _ | e
    · rw [logsAt_succ_of_none he]
      simp
    · rw [logsAt_succ he, logsAfter]
      by_cases hlog : owner e.handle = log
      · subst hlog
        rw [Function.update_self, hstep]
        simp
      · rw [Function.update_of_ne (Ne.symm hlog)]
        simp [hlog]

/-- A log holds what stands in its history. -/
theorem holds_logsAt_iff_stands (r : LogCall) : (logsAt owner events j log).Holds r ↔
    ∃ i, events[i]?.map (·.call) = some r ∧ Stands owner events log i j := by
  rw [holds_logsAt_iff (·.Holds r) (Issues.not_holds_empty r)
    fun log c => Issues.holds_call_iff log c r]
  constructor
  · rintro ⟨i, hi, e, he, hlog, ⟨hrecords, rfl⟩, hkept⟩
    exact ⟨i, by rw [he]; rfl, hi, e, he, hlog, hrecords, hkept⟩
  · rintro ⟨i, hr, hi, e, he, hlog, hrecords, hkept⟩
    obtain rfl : e.call = r := by simpa [he] using hr
    exact ⟨i, hi, e, he, hlog, ⟨hrecords, rfl⟩, hkept⟩

theorem isEmpty_logsAt_iff : (logsAt owner events j log).isEmpty = false ↔
    Since owner events log LogCall.Records (· = .display) j :=
  holds_logsAt_iff (·.isEmpty = false) (by decide) Issues.isEmpty_call_eq_false_iff events log j

/-- Looking at a log before an event tells what the log holds, and changes nothing. -/
theorem answersFrom_insertIdx (hlog : owner h = log) (logs : Log → Issues)
    (events : List (LogEvent Handle)) (hj : j ≤ events.length) :
    answersFrom owner logs (events.insertIdx j ⟨h, .snapshot⟩) =
      (answersFrom owner logs events).insertIdx j
        (.issues ((events.take j).foldl (logsAfter owner) logs log)) := by
  induction j generalizing logs events with
  | zero =>
    have hafter : logsAfter owner logs ⟨h, .snapshot⟩ = logs := Function.update_eq_self _ _
    rw [List.insertIdx_zero, List.insertIdx_zero, answersFrom, hafter, ← hlog]
    rfl
  | succ j ih =>
    cases events with
    | nil => simp at hj
    | cons e rest =>
      rw [List.insertIdx_succ_cons, answersFrom, answersFrom, List.insertIdx_succ_cons,
        ih _ rest (by simpa using hj)]
      rfl

/-- Events on logs that are empty at first, each through some handle. At any point a log holds what
was recorded in it last under each name and description since it was disclosed: a snapshot tells
that and changes nothing, and a disclosure tells the same. There are issues exactly if something was
recorded since the last disclosure. An entry that is not replaced before a disclosure is told by
exactly one, and a second disclosure right after one tells nothing. -/
theorem answers_of_events (owner : Handle → Log) (events : List (LogEvent Handle)) :
    (∀ j ≤ events.length, ∀ h, ∃ found : Issues,
      (∀ r, found.Holds r ↔
        ∃ i, events[i]?.map (·.call) = some r ∧ Stands owner events (owner h) i j) ∧
      answers owner (events.insertIdx j ⟨h, .snapshot⟩) =
        (answers owner events).insertIdx j (.issues found) ∧
      ∀ h', owner h' = owner h → events[j]? = some ⟨h', .display⟩ →
        (answers owner events)[j]? = some (.issues found)) ∧
    (∀ j h, events[j]? = some ⟨h, .hasIssues⟩ → ∃ any,
      (answers owner events)[j]? = some (.pending any) ∧
      (any = true ↔ Since owner events (owner h) LogCall.Records (· = .display) j)) ∧
    (∀ i j e h, events[i]? = some e → e.call.Records → events[j]? = some ⟨h, .display⟩ →
      owner h = owner e.handle → i < j →
      (∀ k x, i < k → k < j → events[k]? = some x → owner x.handle = owner e.handle →
        ¬x.call.Replaces e.call) → ∃! k, Discloses owner events i k) ∧
    ∀ j h h', events[j]? = some ⟨h, .display⟩ → events[j + 1]? = some ⟨h', .display⟩ →
      owner h' = owner h → (answers owner events)[j + 1]? = some (.issues .empty) := by
  refine ⟨fun j hj h => ?_, fun j h hask => ?_, fun i j e h he hr hdisplay hlog hij hkept => ?_,
    fun j h h' hfirst hsecond hlog => ?_⟩
  · refine ⟨logsAt owner events j (owner h), fun r => holds_logsAt_iff_stands r,
      answersFrom_insertIdx rfl _ events hj, fun h' hlog hdisplay => ?_⟩
    rw [getElem?_answers hdisplay, ← hlog]
    rfl
  · refine ⟨_, getElem?_answers hask, ?_⟩
    rw [← isEmpty_logsAt_iff, Bool.not_eq_true']
  · obtain ⟨k, hk⟩ := exists_discloses he hr hdisplay hlog hij hkept
    refine ⟨k, hk, fun m hm => ?_⟩
    exact Nat.le_antisymm (Nat.not_lt.1 (hk.not_lt hm)) (Nat.not_lt.1 (hm.not_lt hk))
  · rw [getElem?_answers hsecond, logsAt_succ hfirst, answerTo, hlog, logsAfter,
      Function.update_self]
    rfl

/-- The handles 0 and 1 belong to one log, the others to another. -/
def firstTwo (handle : Nat) : Bool := decide (handle < 2)

/-- Through its two handles a log is told of one section twice, and then disclosed twice. -/
def toldTwice : List (LogEvent Nat) := [
  ⟨0, .fail "ls" (.notMap .string)⟩,
  ⟨2, .fail "ls" (.notMap .list)⟩,
  ⟨1, .fail "ls" (.invalid none)⟩,
  ⟨2, .hasIssues⟩,
  ⟨0, .display⟩,
  ⟨1, .display⟩,
  ⟨2, .display⟩]

theorem answers_of_events_toldTwice : Stands firstTwo toldTwice true 2 4 ∧
    (∃ found : Issues, (answers firstTwo toldTwice)[4]? = some (.issues found) ∧
      found.Holds (.fail "ls" (.invalid none))) ∧
    (answers firstTwo toldTwice)[5]? = some (.issues .empty) ∧
    ∃! k, Discloses firstTwo toldTwice 1 k := by
  obtain ⟨hpoint, -, honce, htwice⟩ := answers_of_events firstTwo toldTwice
  have hstands : Stands firstTwo toldTwice true 2 4 := by
    refine ⟨by decide, _, rfl, rfl, trivial, fun k x hk hk4 hx hlog => ?_⟩
    obtain rfl : k = 3 := by omega
    obtain rfl : _ = x := Option.some.inj hx
    exact absurd hlog (by decide)
  refine ⟨hstands, ?_, htwice 4 0 1 rfl rfl rfl, ?_⟩
  · obtain ⟨found, hholds, -, hdisplay⟩ := hpoint 4 (by decide) 0
    exact ⟨found, hdisplay 0 rfl rfl, (hholds _).2 ⟨2, rfl, hstands⟩⟩
  · refine honce 1 6 _ 2 rfl trivial rfl rfl (by decide) fun k x hk hk6 hx hlog => ?_
    have hcases : k = 2 ∨ k = 3 ∨ k = 4 ∨ k = 5 := by omega
    rcases hcases with rfl | rfl | rfl | rfl <;>
      obtain rfl : _ = x := Option.some.inj hx
    · exact absurd hlog (by decide)
    · exact id
    · exact absurd hlog (by decide)
    · exact absurd hlog (by decide)

end Runs

end SharedLog

end BackupProfiles
