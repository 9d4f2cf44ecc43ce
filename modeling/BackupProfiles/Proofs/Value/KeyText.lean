import BackupProfiles.Profile.Basic
import BackupProfiles.Proofs.Mapping.Values
import BackupProfiles.Proofs.Merge.Marker

/-!
# Keys that are no texts

Numbers and booleans have texts as keys, and an entry is taken by the text of its key. The text of a
number has digits, a point, signs and the letters of `.inf`, `.nan` and of exponents in it
(`Number.all_text`), so no key but a text is taken for a setting of a profile
(`Value.eq_string_of_keyText`).
-/

namespace BackupProfiles

/-- A character that numbers are written with. -/
def isNumeric (c : Char) : Bool := c.isDigit || ['.', '-', 'e', 'i', 'n', 'f', 'a'].contains c

namespace Text

theorem all_natDigits (n : Nat) : (natDigits n).all isNumeric := by
  rw [List.all_eq_true]
  intro c hc
  rw [isNumeric, isDigit_of_mem_natDigits hc, Bool.true_or]

theorem all_intText (i : Int) : (intText i).toList.all isNumeric := by
  have hdigits := all_natDigits i.natAbs
  unfold intText natText
  split
  · simp only [String.toList_append, String.toList_ofList, List.all_append, hdigits]
    decide
  · rwa [String.toList_ofList]

end Text

namespace NumberStyle

variable (style : NumberStyle) {ds : List Char}

theorem all_replicate_zero (n : Nat) : (List.replicate n '0').all isNumeric := by
  rw [List.all_eq_true]
  intro c hc
  rw [List.eq_of_mem_replicate hc]
  decide

theorem all_exponentForm (h : ds.all isNumeric) (point : Int) :
    (exponentForm ds point).all isNumeric := by
  have hpoint : isNumeric '.' := by decide
  have he : isNumeric 'e' := by decide
  have hexponent := Text.all_intText (point - 1)
  unfold exponentForm
  split
  · simp only [List.all_cons, Bool.and_eq_true] at h
    simp only [List.all_append, List.all_cons, h, hpoint, he, hexponent, Bool.and_self]
  · simp only [List.all_append, List.all_cons, h, he, hexponent, Bool.and_self]

theorem all_positionalForm (h : ds.all isNumeric) (point : Int) :
    (style.positionalForm ds point).all isNumeric := by
  have hpoint : isNumeric '.' := by decide
  have hzero : isNumeric '0' := by decide
  have hpart : ∀ l : List Char, l ⊆ ds → l.all isNumeric := fun l hl =>
    List.all_eq_true.2 fun c hc => List.all_eq_true.1 h c (hl hc)
  unfold positionalForm
  simp only []
  split
  · simp only [List.all_cons, List.all_append, all_replicate_zero, h, hpoint, hzero, Bool.and_self]
  · split
    · simp only [List.all_append, List.all_cons, hpart _ (List.take_subset _ _),
        hpart _ (List.drop_subset _ _), hpoint, Bool.and_self]
    · split <;> simp only [List.all_append, List.all_cons, List.all_nil, all_replicate_zero, h,
        hpoint, hzero, Bool.and_self]

theorem all_magnitudeText (m : Nat) (e : Int) : (style.magnitudeText m e).all isNumeric := by
  unfold magnitudeText
  simp only []
  split
  · split <;> decide
  · split
    · exact all_positionalForm style (Text.all_natDigits _) _
    · exact all_exponentForm (Text.all_natDigits _) _

theorem all_scientific : ∀ x : Binary64, (scientific.write x).toList.all isNumeric
  | .nan => by decide
  | .infinite true => by decide
  | .infinite false => by decide
  | .finite negative m e => by
    have htext := all_magnitudeText scientific m e
    cases negative
    · simpa [write] using htext
    · have hsign : isNumeric '-' := by decide
      simpa [write, hsign] using htext

end NumberStyle

theorem Number.all_text : ∀ n : Number, n.text.toList.all isNumeric
  | .int n => Text.all_intText n
  | .float x => NumberStyle.all_scientific x

/-- A key whose text is not that of a number or a boolean is that text. -/
theorem Value.eq_string_of_not_numeric {key : Value} {n : String} (hk : key.keyText = some n)
    (hnumber : ¬ n.toList.all isNumeric) (hbool : n ∉ ["true", "false"]) : key = .string n := by
  cases key with
  | string s => rw [Option.some.inj hk]
  | number x =>
    obtain rfl := Option.some.inj hk
    exact absurd x.all_text hnumber
  | bool b =>
    obtain rfl := Option.some.inj hk
    cases b <;> exact absurd (by decide) hbool
  | null | list _ | mapping _ | tagged _ _ => cases hk

/-- Likewise a key that goes by such a text, tags aside. -/
theorem Value.untagged_of_keyName {key : Value} {n : String} (hk : key.keyName = n)
    (hnumber : ¬ n.toList.all isNumeric) (hbool : n ∉ ["true", "false"]) :
    key.untagged = .string n := by
  subst hk
  rcases keyName_cases key with ⟨name, hname, hk⟩ | hk
  · rw [hk] at hnumber hbool ⊢
    exact eq_string_of_not_numeric hname hnumber hbool
  · have hother : ∀ name ∈ ["0.0", ""], name.toList.all isNumeric := by decide
    exact absurd (hother _ hk) hnumber

/-- A key with the text of a setting is that text. -/
theorem Value.eq_string_of_keyText {key : Value} {n : String} (hk : key.keyText = some n)
    (hn : n ∈ Profile.shape.fieldNames) : key = .string n := by
  have hfields : ∀ n ∈ Profile.shape.fieldNames,
      ¬ n.toList.all isNumeric ∧ n ∉ ["true", "false"] := by decide
  exact eq_string_of_not_numeric hk (hfields n hn).1 (hfields n hn).2

/-- Likewise a key with the text of a generic section. -/
theorem Value.eq_string_of_generic {key : Value} {n : String} (hk : key.keyText = some n)
    (hn : n ∈ CommandTable.builtin.genericNames) : key = .string n := by
  have hnames : ∀ n ∈ CommandTable.builtin.genericNames,
      ¬ n.toList.all isNumeric ∧ n ∉ ["true", "false"] := by decide
  exact eq_string_of_not_numeric hk (hnames n hn).1 (hnames n hn).2

end BackupProfiles
