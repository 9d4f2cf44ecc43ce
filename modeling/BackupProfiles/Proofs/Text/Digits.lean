import BackupProfiles.Text.Blank
import BackupProfiles.Text.Digits
import Mathlib.Data.List.Basic

/-!
# Decimal digits

The decimal digits of a number are a run of digits with that number for its value
(`valueIn_natDigits`). No digit is blank.
-/

namespace BackupProfiles.Text

variable {c : Char} {cs : List Char}

theorem toNat_of_isDigit (h : c.isDigit) : 48 ≤ c.toNat ∧ c.toNat ≤ 57 := by
  rw [Char.isDigit, Bool.and_eq_true, decide_eq_true_iff, decide_eq_true_iff] at h
  exact h

theorem isBlank_of_isDigit (h : c.isDigit) : isBlank c = false := by
  have hbounds := toNat_of_isDigit h
  simp only [isBlank, Bool.or_eq_false_iff, Bool.and_eq_false_iff, decide_eq_false_iff_not,
    beq_eq_false_iff_ne]
  omega

theorem digit?_ten (h : c.isDigit) : digit? 10 c = some (c.toNat - '0'.toNat) := by
  have hbounds := toNat_of_isDigit h
  have hrange : ('0'.toNat ≤ c.toNat && c.toNat ≤ '9'.toNat) = true := by
    rw [Bool.and_eq_true, decide_eq_true_iff, decide_eq_true_iff]
    exact hbounds
  simp only [digit?, hrange, if_true]
  rw [if_pos]
  show c.toNat - 48 < 10
  omega

theorem digit?_ten_eq_none (h : c.isDigit = false) : digit? 10 c = none := by
  have hrange : ('0'.toNat ≤ c.toNat && c.toNat ≤ '9'.toNat) = false := h
  simp only [digit?, hrange, Bool.false_eq_true, if_false]
  rw [if_neg]
  split
  · omega
  · split <;> omega

theorem isDigitIn_ten : isDigitIn 10 = Char.isDigit := by
  funext c
  rw [isDigitIn]
  by_cases h : c.isDigit
  · rw [digit?_ten h, h, Option.isSome_some]
  · rw [Bool.not_eq_true] at h
    rw [digit?_ten_eq_none h, h, Option.isSome_none]

theorem valueIn_ten (h : ∀ c ∈ cs, c.isDigit) : valueIn 10 cs = Nat.ofDigitChars 10 cs 0 := by
  rw [valueIn, Nat.ofDigitChars_eq_foldl]
  refine List.foldl_ext _ _ _ fun n c hc => ?_
  rw [digit?_ten (h c hc), Option.getD_some, Nat.mul_comm]

theorem isDigit_of_mem_natDigits {n : Nat} (h : c ∈ natDigits n) : c.isDigit :=
  Nat.isDigit_of_mem_toDigits (by decide) (by decide) h

theorem natDigits_ne_nil (n : Nat) : natDigits n ≠ [] := Nat.toDigits_ne_nil

theorem valueIn_natDigits (n : Nat) : valueIn 10 (natDigits n) = n := by
  rw [valueIn_ten fun _ => isDigit_of_mem_natDigits, natDigits, Nat.ofDigitChars_ten_toDigits]

theorem natText_eq (n : Nat) : natText n = n.repr := by
  rw [Nat.repr_eq_ofList_toDigits]
  rfl

/-- The decimal text of an integer is the one that the standard library gives. -/
theorem intText_eq (n : Int) : intText n = toString n := by
  rw [intText, natText_eq]
  cases n with
  | ofNat n => rfl
  | negSucc n =>
    rw [if_pos (Int.negSucc_lt_zero n)]
    rfl

theorem intText_ne_empty {n : Int} (h : 0 ≤ n) : intText n ≠ "" := by
  rw [intText, if_neg (Int.not_lt.2 h), natText_eq]
  exact Nat.repr_ne_empty

end BackupProfiles.Text
