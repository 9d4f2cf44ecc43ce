import BackupProfiles.Profile.Merge
import BackupProfiles.Proofs.Text.Digits
import BackupProfiles.Proofs.Value.SameKey
import Mathlib.Data.List.Basic

/-!
# Which keys are markers

A text is a marker when it has three dots at one end and something before or after them. The text
of a number has at most one dot, so only texts are markers. The markers of a base that is no marker
itself and holds more than dots are the base with dots after it and the base with dots before it
(`ofKey?_eq_back`, `ofKey?_eq_front`).
-/

namespace BackupProfiles

namespace Text

theorem dot_notMem_natDigits (n : Nat) : '.' ∉ natDigits n := by
  intro h
  have := isDigit_of_mem_natDigits h
  simp at this

theorem dot_notMem_intText (i : Int) : '.' ∉ (intText i).toList := by
  unfold intText natText
  split <;> simp [dot_notMem_natDigits]

end Text

namespace NumberStyle

variable (style : NumberStyle)

theorem count_dot_exponentForm {ds : List Char} (h : '.' ∉ ds) (point : Int) :
    (exponentForm ds point).count '.' ≤ 1 := by
  have he := List.count_eq_zero.2 (Text.dot_notMem_intText (point - 1))
  unfold exponentForm
  split
  · simp only [List.mem_cons, not_or] at h
    simp [List.count_append, he, List.count_eq_zero.2 h.2.2, Ne.symm h.1,
      Ne.symm h.2.1]
  · simp [he, List.count_eq_zero.2 h]

theorem count_dot_positionalForm {ds : List Char} (h : '.' ∉ ds) (point : Int) :
    (style.positionalForm ds point).count '.' ≤ 1 := by
  have hz := List.count_eq_zero.2 h
  unfold positionalForm
  simp only []
  split
  · simp [List.count_replicate, hz]
  · split
    · have ht : '.' ∉ ds.take point.toNat := fun hd => h (List.mem_of_mem_take hd)
      have hd : '.' ∉ ds.drop point.toNat := fun hd => h (List.mem_of_mem_drop hd)
      simp [List.count_eq_zero.2 ht, List.count_eq_zero.2 hd]
    · split <;> simp [List.count_replicate, hz]

theorem count_dot_magnitudeText (m : Nat) (e : Int) :
    (style.magnitudeText m e).count '.' ≤ 1 := by
  unfold magnitudeText
  simp only []
  split
  · split <;> simp
  · split
    · exact count_dot_positionalForm style (Text.dot_notMem_natDigits _) _
    · exact count_dot_exponentForm (Text.dot_notMem_natDigits _) _

theorem count_dot_scientific : ∀ x : Binary64, (scientific.write x).toList.count '.' ≤ 1
  | .nan => by decide
  | .infinite true => by decide
  | .infinite false => by decide
  | .finite negative m e => by
    have := count_dot_magnitudeText scientific m e
    cases negative <;> simpa [write] using this

end NumberStyle

theorem Number.count_dot_text : ∀ n : Number, n.text.toList.count '.' ≤ 1
  | .int n => by simp [text, List.count_eq_zero.2 (Text.dot_notMem_intText n)]
  | .float x => NumberStyle.count_dot_scientific x

namespace Marker

theorem beforeDots?_eq_some_iff {cs base : List Char} :
    beforeDots? cs = some base ↔ cs = base ++ dots ∧ base ≠ [] := by
  unfold beforeDots?
  constructor
  · intro h
    simp only [] at h
    split_ifs at h with hc
    simp only [Option.some.injEq] at h
    rw [← h]
    exact hc
  · rintro ⟨rfl, hb⟩
    simp [dots, hb]

theorem afterDots?_eq_some_iff {cs base : List Char} :
    afterDots? cs = some base ↔ cs = dots ++ base ∧ base ≠ [] := by
  unfold afterDots?
  constructor
  · intro h
    simp only [] at h
    split_ifs at h with hc
    simp only [Option.some.injEq] at h
    rw [← h]
    exact hc
  · rintro ⟨rfl, hb⟩
    simp [dots, hb]

theorem toList_dots : "...".toList = dots := rfl

theorem ofText?_eq_back {s base : String} :
    ofText? s = some ⟨base, .back⟩ ↔ s = base ++ "..." ∧ base ≠ "" := by
  have hs : s = base ++ "..." ↔ s.toList = base.toList ++ dots := by
    rw [← String.toList_inj, String.toList_append, toList_dots]
  rw [hs, ne_eq, ← String.toList_eq_nil_iff, ← ne_eq, ← beforeDots?_eq_some_iff]
  unfold ofText?
  rcases beforeDots? s.toList with _ | found
  · simp
  · simp [← String.toList_inj]

theorem ofText?_eq_front {s base : String} :
    ofText? s = some ⟨base, .front⟩ ↔
      beforeDots? s.toList = none ∧ s = "..." ++ base ∧ base ≠ "" := by
  have hs : s = "..." ++ base ↔ s.toList = dots ++ base.toList := by
    rw [← String.toList_inj, String.toList_append, toList_dots]
  rw [hs, ne_eq, ← String.toList_eq_nil_iff, ← ne_eq, ← afterDots?_eq_some_iff]
  unfold ofText?
  rcases beforeDots? s.toList with _ | found
  · simp [← String.toList_inj]
  · simp

/-- Dots before a base do not count as dots after something else. -/
theorem beforeDots?_dots_append {base : List Char} (hm : beforeDots? base = none)
    (hc : ∃ c ∈ base, c ≠ '.') : beforeDots? (dots ++ base) = none := by
  obtain ⟨c, hc, hne⟩ := hc
  have hdots : c ∉ dots := by simp [dots, hne]
  rcases hb : beforeDots? (dots ++ base) with _ | front
  · rfl
  · obtain ⟨heq, -⟩ := beforeDots?_eq_some_iff.1 hb
    rcases List.append_eq_append_iff.1 heq with ⟨rest, -, rfl⟩ | ⟨rest, -, h⟩
    · by_cases hrest : rest = []
      · exact absurd hc (by simpa [hrest] using hdots)
      · rw [beforeDots?_eq_some_iff.2 ⟨rfl, hrest⟩] at hm
        exact absurd hm (by simp)
    · exact absurd (h ▸ List.mem_append_right rest hc) hdots

theorem three_le_count_dot {s : String} {marker : Marker} (h : ofText? s = some marker) :
    3 ≤ s.toList.count '.' := by
  obtain ⟨base, side⟩ := marker
  have hd : dots.count '.' = 3 := rfl
  cases side with
  | back =>
    rw [(ofText?_eq_back.1 h).1, String.toList_append, List.count_append, toList_dots, hd]
    exact Nat.le_add_left _ _
  | front =>
    rw [(ofText?_eq_front.1 h).2.1, String.toList_append, List.count_append, toList_dots, hd]
    exact Nat.le_add_right _ _

theorem ofKey?_eq_some {key : Value} {marker : Marker} :
    ofKey? key = some marker ↔ ∃ s, key = .string s ∧ ofText? s = some marker := by
  unfold ofKey?
  constructor
  · intro h
    cases key with
    | string s => exact ⟨s, rfl, h⟩
    | number n =>
      have hn := three_le_count_dot (s := n.text) h
      have := n.count_dot_text
      omega
    | bool b =>
      have hb := three_le_count_dot (s := Value.boolText b) h
      cases b <;> exact absurd hb (by decide)
    | _ => simp [Value.keyText] at h
  · rintro ⟨s, rfl, h⟩
    exact h

/-- Only texts are markers. -/
theorem exists_string {key : Value} (h : ofKey? key ≠ none) : ∃ s, key = .string s := by
  obtain ⟨marker, hm⟩ := Option.ne_none_iff_exists'.1 h
  obtain ⟨s, hs, -⟩ := ofKey?_eq_some.1 hm
  exact ⟨s, hs⟩

/-- Values that stand for one key are one marker, or none. -/
theorem ofKey?_congr {j k : Value} (h : j.sameKey k = true) : ofKey? j = ofKey? k := by
  have hsome : ∀ {j k : Value} {marker : Marker}, j.sameKey k = true →
      ofKey? j = some marker → ofKey? k = some marker := by
    intro j k marker hjk hj
    obtain ⟨s, rfl, -⟩ := ofKey?_eq_some.1 hj
    rwa [Value.string_sameKey.1 hjk]
  exact Option.ext fun marker => ⟨hsome h, hsome (Value.sameKey_symm h)⟩

/-- The key of the marker that adds items at the front of a base. -/
def frontKey (base : String) : Value := .string ("..." ++ base)

/-- The key of the marker that adds items at the back of a base. -/
def backKey (base : String) : Value := .string (base ++ "...")

/-- The key that a marker is written as. -/
def key : Marker → Value
  | ⟨base, .front⟩ => frontKey base
  | ⟨base, .back⟩ => backKey base

theorem sameKey_key {k : Value} (marker : Marker) :
    k.sameKey marker.key = true ↔ k = marker.key := by
  obtain ⟨base, side⟩ := marker
  cases side <;> exact Value.sameKey_string

theorem eq_key_of_ofKey? {k : Value} {marker : Marker} (h : ofKey? k = some marker) :
    k = marker.key := by
  obtain ⟨s, rfl, hs⟩ := ofKey?_eq_some.1 h
  obtain ⟨base, side⟩ := marker
  cases side with
  | front => rw [key, frontKey, (ofText?_eq_front.1 hs).2.1]
  | back => rw [key, backKey, (ofText?_eq_back.1 hs).1]

/-- A base that markers can name: no marker itself, and with something but dots in it. -/
structure Nameable (base : String) : Prop where
  plain : ofText? base = none
  hasOther : ∃ c ∈ base.toList, c ≠ '.'

namespace Nameable

variable {base : String} {key : Value}

theorem ne_empty (h : Nameable base) : base ≠ "" := by
  rintro rfl
  obtain ⟨c, hc, -⟩ := h.hasOther
  simp at hc

theorem ofKey?_eq_back (h : Nameable base) :
    ofKey? key = some ⟨base, .back⟩ ↔ key = backKey base := by
  rw [ofKey?_eq_some]
  constructor
  · rintro ⟨s, rfl, hs⟩
    rw [backKey, (ofText?_eq_back.1 hs).1]
  · rintro rfl
    exact ⟨_, rfl, ofText?_eq_back.2 ⟨rfl, h.ne_empty⟩⟩

theorem ofKey?_eq_front (h : Nameable base) :
    ofKey? key = some ⟨base, .front⟩ ↔ key = frontKey base := by
  rw [ofKey?_eq_some]
  constructor
  · rintro ⟨s, rfl, hs⟩
    rw [frontKey, (ofText?_eq_front.1 hs).2.1]
  · rintro rfl
    have hplain : beforeDots? base.toList = none := by
      have hp := h.plain
      unfold ofText? at hp
      rcases hb : beforeDots? base.toList with _ | found
      · rfl
      · rw [hb] at hp
        simp at hp
    refine ⟨_, rfl, ofText?_eq_front.2 ⟨?_, rfl, h.ne_empty⟩⟩
    rw [String.toList_append, toList_dots]
    exact beforeDots?_dots_append hplain h.hasOther

theorem ofKey?_string (h : Nameable base) : ofKey? (.string base) = none := h.plain

theorem ofKey?_key (h : Nameable base) (side : ListEnd) :
    ofKey? (Marker.key ⟨base, side⟩) = some ⟨base, side⟩ := by
  cases side with
  | front => exact h.ofKey?_eq_front.2 rfl
  | back => exact h.ofKey?_eq_back.2 rfl

end Nameable

end Marker

end BackupProfiles
