import BackupProfiles.Proofs.Reading.Account
import BackupProfiles.Proofs.Text.Digits
import BackupProfiles.Proofs.Traversal

/-!
# Values of documents as flags

A value that is no list stands in a flag by its text, and a list by the texts of its items, tags
aside (`Value.Spells`). Only maps, and lists with a list or a map in them, are refused
(`FlagValue.ofValue_eq_error_iff`). A text or a number is emitted as its text, whether it stands
alone or in a list of its own, unless it stands alone and is empty or zero; a list is emitted with
one value for each item.
-/

namespace BackupProfiles

namespace Value

/-- A list or a map, behind any tags. -/
def IsNested (v : Value) : Prop := v.untagged.kind = .list ∨ v.untagged.kind = .map

/-- A text or a number, behind any tags. -/
def IsPlainScalar (v : Value) : Prop := v.untagged.kind = .string ∨ v.untagged.kind = .number

/-- The empty text or a zero, behind any tags. -/
def IsVoid (v : Value) : Prop :=
  match v.untagged with
  | .string s => s = ""
  | .number (.int n) => n = 0
  | .number (.float x) => x.isZero = true
  | _ => False

/-- The text of a value that is no list and no map. -/
inductive Spells : Value → String → Prop where
  | null : Spells .null ""
  | on : Spells (.bool true) "true"
  | off : Spells (.bool false) "false"
  | integer (n : Int) : Spells (.number (.int n)) (toString n)
  | float (x : Binary64) : Spells (.number (.float x)) (NumberStyle.positional.write x)
  | string (s : String) : Spells (.string s) s
  | tagged {tag : String} {content : Value} {s : String} (h : Spells content s) :
    Spells (.tagged tag content) s

end Value

namespace FlagValue

open Value

/-- What a flag refuses, and why: a map, or a list for the first list or map in it. -/
inductive RefusedFor (v : Value) : Refusal → Prop where
  | map {m : Mapping} (h : v.untagged = .mapping m) : RefusedFor v .nestedMap
  | item {before after : List Value} {item : Value}
    (h : v.untagged = .list (before ++ item :: after)) (flat : ∀ i ∈ before, ¬ i.IsNested)
    (nested : item.IsNested) : RefusedFor v (.nestedItem item.untagged.kind)

/-- A value stands in a flag and is written with some values on the command line. -/
def Emits (v : Value) (texts : List String) : Prop :=
  ∃ x, ofValue v = .ok x ∧ x.emitted? = some texts

/-- A value stands in a flag and suppresses it. -/
def Suppresses (v : Value) : Prop := ∃ x, ofValue v = .ok x ∧ x.emitted? = none

variable {v : Value} {items : List Value} {s : String} {why : Refusal}

theorem spells_of_ofItem : ∀ {v : Value} {s : String}, ofItem v = .ok s → v.Spells s
  | .null, _, h => by cases h; exact .null
  | .bool true, _, h => by cases h; exact .on
  | .bool false, _, h => by cases h; exact .off
  | .number (.int n), _, h => by
    cases h
    rw [numberText, Text.intText_eq]
    exact .integer n
  | .number (.float x), _, h => by cases h; exact .float x
  | .string s, _, h => by cases h; exact .string s
  | .tagged _ _, _, h => .tagged (spells_of_ofItem h)
  | .list _, _, h | .mapping _, _, h => by cases h

theorem ofItem_eq_ok_iff : ofItem v = .ok s ↔ v.Spells s := by
  refine ⟨spells_of_ofItem, fun h => ?_⟩
  induction h with
  | integer n => rw [ofItem, numberText, Text.intText_eq]
  | tagged _ ih => exact ih
  | _ => rfl

theorem ofItem_untagged : ∀ v : Value, ofItem v.untagged = ofItem v
  | .tagged _ v => ofItem_untagged v
  | .null | .bool _ | .number _ | .string _ | .list _ | .mapping _ => rfl

theorem ofItem_eq_error_iff :
    ofItem v = .error why ↔ v.IsNested ∧ why = .nestedItem v.untagged.kind := by
  rw [← ofItem_untagged, IsNested]
  rcases hv : v.untagged with _ | b | n | s | items | m | ⟨tag, content⟩
  case tagged => exact absurd hv (untagged_ne_tagged v)
  all_goals simp [ofItem, kind, eq_comm]

theorem exists_ofItem_iff : (∃ s, ofItem v = .ok s) ↔ ¬ v.IsNested := by
  rcases h : ofItem v with why | s
  · simp [(ofItem_eq_error_iff.1 h).1]
  · have hflat : ¬ v.IsNested := fun hn => by
      rw [ofItem_eq_error_iff.2 ⟨hn, rfl⟩] at h
      cases h
    simp [hflat]

theorem ofValue_of_list (h : v.untagged = .list items) :
    ofValue v = (items.mapM ofItem).map .list := by
  rw [← ofValue_untagged, h, ofValue]

theorem ofValue_list_eq_ok_iff {x : FlagValue} (h : v.untagged = .list items) :
    ofValue v = .ok x ↔ ∃ texts, List.Forall₂ Spells items texts ∧ x = .list texts := by
  have hread : ∀ texts, items.mapM ofItem = .ok texts ↔ List.Forall₂ Spells items texts := by
    intro texts
    simp only [mapM_eq_ok_iff, ofItem_eq_ok_iff]
  rw [ofValue_of_list h]
  simp only [← hread]
  rcases items.mapM ofItem with why | texts <;> simp [Except.map, eq_comm]

theorem ofValue_list_eq_error_iff (h : v.untagged = .list items) :
    ofValue v = .error why ↔ ∃ before item after, items = before ++ item :: after ∧
      (∀ i ∈ before, ¬ i.IsNested) ∧ item.IsNested ∧ why = .nestedItem item.untagged.kind := by
  have hread : ofValue v = .error why ↔ items.mapM ofItem = .error why := by
    rw [ofValue_of_list h]
    rcases items.mapM ofItem with why | texts <;> simp [Except.map]
  simp only [hread, mapM_eq_error_iff, exists_ofItem_iff, ofItem_eq_error_iff]

theorem ofValue_eq_error_iff : ofValue v = .error why ↔ RefusedFor v why := by
  constructor
  · intro h
    rcases hv : v.untagged with _ | b | n | s | items | m | ⟨tag, content⟩
    case list =>
      obtain ⟨before, item, after, rfl, hflat, hnested, rfl⟩ := (ofValue_list_eq_error_iff hv).1 h
      exact .item hv hflat hnested
    case mapping =>
      rw [← ofValue_untagged, hv] at h
      cases h
      exact .map hv
    case tagged => exact absurd hv (untagged_ne_tagged v)
    all_goals
      rw [← ofValue_untagged, hv] at h
      cases h
  · rintro (⟨h⟩ | ⟨h, hflat, hnested⟩)
    · rw [← ofValue_untagged, h, ofValue]
    · exact (ofValue_list_eq_error_iff h).2 ⟨_, _, _, rfl, hflat, hnested, rfl⟩

theorem eq_of_spells {n : Int} (h : v.Spells s) (hn : v.untagged = .number (.int n)) :
    s = toString n := by
  rw [← ofItem_eq_ok_iff, ← ofItem_untagged, hn, ofItem, numberText, Text.intText_eq] at h
  exact (Except.ok.inj h).symm

/-- Integers are written with the same digits whether they fit 64 bits with a sign or not. -/
theorem emitted?_ofNumber_int (n : Int) :
    (ofNumber (.int n)).emitted? = if n = 0 then none else some [Text.intText n] := by
  rw [ofNumber]
  split
  · rfl
  · rename_i h
    have hbound : (0 : Int) < Text.wordBound 63 := by decide
    rw [emitted?, if_neg (Text.intText_ne_empty (by omega)), if_neg (by omega)]

theorem emits_singleton (h : v.Spells s) : Emits (.list [v]) [s] :=
  ⟨.list [s], (ofValue_list_eq_ok_iff rfl).2 ⟨[s], .cons h .nil, rfl⟩, rfl⟩

theorem suppresses_iff {x : FlagValue} (h : ofValue v = .ok x) :
    Suppresses v ↔ x.emitted? = none := by
  simp [Suppresses, h]

/-- A text or a number stands in a flag by its text, but a void one suppresses it. -/
theorem emitted?_of_isPlainScalar (h : v.IsPlainScalar) :
    ∃ x text, ofValue v = .ok x ∧ v.Spells text ∧
      ((v.IsVoid ∧ x.emitted? = none) ∨ (¬ v.IsVoid ∧ x.emitted? = some [text])) := by
  rw [IsPlainScalar] at h
  simp only [← ofItem_eq_ok_iff]
  rw [← ofItem_untagged, ← ofValue_untagged, IsVoid]
  generalize v.untagged = w at h ⊢
  rcases w with _ | b | (n | x) | s | items | m | ⟨tag, content⟩
  case string =>
    refine ⟨_, _, rfl, rfl, ?_⟩
    by_cases hs : s = "" <;> simp [emitted?, hs]
  case number.int =>
    refine ⟨_, _, rfl, rfl, ?_⟩
    rw [emitted?_ofNumber_int, numberText]
    by_cases hn : n = 0 <;> simp [hn]
  case number.float =>
    refine ⟨_, _, rfl, rfl, ?_⟩
    rw [ofNumber, emitted?, numberText]
    by_cases hx : x.isZero <;> simp [hx]
  all_goals simp [kind] at h

/-- How values of documents stand in flags. Maps are refused, and so are lists for the first list or
map in them. A text or a number suppresses the flag when it is void, and otherwise is emitted as its
text, for an integer its decimal text, like the list that holds nothing else. A list is emitted with
one text for each item in their order, and suppresses the flag only when it is empty. -/
theorem conversion (v : Value) :
    (∀ why, ofValue v = .error why ↔ RefusedFor v why) ∧
    (v.IsPlainScalar → (Suppresses v ↔ v.IsVoid) ∧
      (¬ Suppresses v → ∃ text, v.Spells text ∧ Emits v [text] ∧ Emits (.list [v]) [text] ∧
        ∀ n : Int, v.untagged = .number (.int n) → text = toString n)) ∧
    (∀ items, v.untagged = .list items → (∀ item ∈ items, ¬ item.IsNested) →
      (Suppresses v ↔ items = []) ∧
      (items ≠ [] → ∃ texts, List.Forall₂ Spells items texts ∧ Emits v texts)) := by
  refine ⟨fun _ => ofValue_eq_error_iff, fun hscalar => ?_, fun items hv hflat => ?_⟩
  · obtain ⟨x, text, hx, htext, hemitted⟩ := emitted?_of_isPlainScalar hscalar
    rw [suppresses_iff hx]
    rcases hemitted with ⟨hvoid, hnone⟩ | ⟨hvoid, hsome⟩
    · exact ⟨iff_of_true hnone hvoid, fun h => absurd hnone h⟩
    · refine ⟨iff_of_false (by simp [hsome]) hvoid, fun _ => ?_⟩
      exact ⟨text, htext, ⟨x, hx, hsome⟩, emits_singleton htext, fun n => eq_of_spells htext⟩
  · obtain ⟨x, hx⟩ : ∃ x, ofValue v = .ok x := by
      rcases hx : ofValue v with why | x
      · obtain ⟨before, item, after, rfl, -, hnested, -⟩ := (ofValue_list_eq_error_iff hv).1 hx
        exact absurd hnested (hflat item (by simp))
      · exact ⟨x, rfl⟩
    obtain ⟨texts, htexts, rfl⟩ := (ofValue_list_eq_ok_iff hv).1 hx
    have hnil : texts = [] ↔ items = [] := by
      rw [← List.length_eq_zero_iff, ← htexts.length_eq, List.length_eq_zero_iff]
    rw [suppresses_iff hx, ← hnil]
    by_cases hempty : texts = []
    · exact ⟨by simp [emitted?, hempty], fun h => absurd (hnil.1 hempty) h⟩
    · exact ⟨by simp [emitted?, hempty], fun _ => ⟨texts, htexts, _, hx, by simp [emitted?, hempty]⟩⟩

/-- The greatest integer of 64 bits, alone and in a list with other items. -/
def greatestWord : Value := .tagged "!n" (.number (.int 18446744073709551615))

theorem conversion_greatestWord :
    (∃ text, greatestWord.Spells text ∧ Emits greatestWord [text] ∧
      Emits (.list [greatestWord]) [text] ∧ text = "18446744073709551615") ∧
    ∃ texts, List.Forall₂ Spells [greatestWord, .null] texts ∧
      Emits (.list [greatestWord, .null]) texts := by
  obtain ⟨-, hscalar, -⟩ := conversion greatestWord
  obtain ⟨-, -, hlist⟩ := conversion (.list [greatestWord, .null])
  obtain ⟨hvoid, hemits⟩ := hscalar (Or.inr rfl)
  obtain ⟨text, htext, halone, hfirst, hdigits⟩ := hemits fun h => by
    exact absurd (hvoid.1 h) (by simp [IsVoid, greatestWord, untagged])
  refine ⟨⟨text, htext, halone, hfirst, hdigits _ rfl⟩, (hlist _ rfl ?_).2 (by simp)⟩
  simp [IsNested, greatestWord, untagged, kind]

end FlagValue

end BackupProfiles
