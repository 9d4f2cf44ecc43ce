import BackupProfiles.Numeric.Binary64
import Mathlib.Algebra.Order.Ring.Nat

/-!
# Whole numbers as doubles

A double holds a natural number when its exponent takes nothing away from it (`Holds`). A quotient
with a value below `2 ^ 53` that is a natural number is rounded to that number, however it is
written (`ofRatio_mul`). So natural numbers are held below that bound, and sums and products are
exact as long as they stay below it.
-/

namespace BackupProfiles.Binary64

/-- The double is not negative and has a natural number for its value. -/
def Holds (x : Binary64) (k : Nat) : Prop :=
  ∃ m e, x = finite false m e ∧ e ≤ 0 ∧ m = k * 2 ^ (-e).toNat

variable {a b k den : Nat} {x y : Binary64}

theorem scaled_of_nonpos {e : Int} (he : e ≤ 0) (num den : Nat) :
    scaled num den e = (num * 2 ^ (-e).toNat, den) := by
  rw [scaled]
  split
  · rw [Nat.shiftLeft_eq]
  · obtain rfl : e = 0 := by omega
    simp

theorem scaled_neg_of_nonpos {e : Int} (he : e ≤ 0) (num : Nat) :
    scaled num 1 (-e) = (num, 2 ^ (-e).toNat) := by
  rw [scaled, if_neg (by omega), Nat.shiftLeft_eq, Nat.one_mul]

theorem roundHalfEven_mul (hd : 0 < den) (q : Nat) : roundHalfEven (q * den) den = q := by
  simp [roundHalfEven, Nat.mul_div_cancel q hd, hd]

theorem log2_mul (hk : k ≠ 0) (hd : den ≠ 0) :
    (k * den).log2 = k.log2 + den.log2 ∨ (k * den).log2 = k.log2 + den.log2 + 1 := by
  have hkd : k * den ≠ 0 := Nat.mul_ne_zero hk hd
  have hlow : k.log2 + den.log2 ≤ (k * den).log2 := by
    rw [Nat.le_log2 hkd, Nat.pow_add]
    exact Nat.mul_le_mul (Nat.log2_self_le hk) (Nat.log2_self_le hd)
  have hhigh : (k * den).log2 < (k.log2 + 1) + (den.log2 + 1) := by
    rw [Nat.log2_lt hkd, Nat.pow_add]
    exact Nat.mul_lt_mul'' Nat.lt_log2_self Nat.lt_log2_self
  omega

/-- The exponent at which a natural number has 53 bits, for any quotient with that value. -/
theorem exponentFor_mul (hk : 0 < k) (hbound : k < 2 ^ 53) (hd : 0 < den) :
    exponentFor (k * den) den = (k.log2 : Int) - 52 := by
  have hlow : 2 ^ k.log2 ≤ k := Nat.log2_self_le hk.ne'
  have hhigh : k < 2 ^ (k.log2 + 1) := Nat.lt_log2_self
  have hlog : k.log2 < 53 := (Nat.log2_lt hk.ne').2 hbound
  have hnormal : normalBound = 2 ^ 52 := rfl
  have hquot : ∀ j, k * den * 2 ^ j / den = k * 2 ^ j := fun j => by
    rw [Nat.mul_right_comm, Nat.mul_div_cancel _ hd]
  rw [exponentFor]
  simp only [leastExponent, hnormal]
  rcases log2_mul hk.ne' hd.ne' with h | h
  · -- the first guess is right
    have hfull : 2 ^ 52 ≤ k * 2 ^ (52 - k.log2) := calc
      2 ^ 52 = 2 ^ k.log2 * 2 ^ (52 - k.log2) := by rw [← Nat.pow_add]; congr 1; omega
      _ ≤ k * 2 ^ (52 - k.log2) := Nat.mul_le_mul_right _ hlow
    rw [h, show ((k.log2 + den.log2 : Nat) : Int) - den.log2 - 52 = k.log2 - 52 by omega,
      scaled_of_nonpos (by omega), show (-((k.log2 : Int) - 52)).toNat = 52 - k.log2 by omega, hquot,
      if_neg (Nat.not_lt.2 hfull)]
    omega
  · -- the first guess is one too many, which shows in a missing bit
    have hmissing : (scaled (k * den) den ((k.log2 : Int) - 51)).1 /
        (scaled (k * den) den ((k.log2 : Int) - 51)).2 < 2 ^ 52 := by
      by_cases hle : k.log2 ≤ 51
      · rw [scaled_of_nonpos (by omega), show (-((k.log2 : Int) - 51)).toNat = 51 - k.log2 by omega,
          hquot]
        calc k * 2 ^ (51 - k.log2) < 2 ^ (k.log2 + 1) * 2 ^ (51 - k.log2) :=
              Nat.mul_lt_mul_of_pos_right hhigh (Nat.two_pow_pos _)
          _ = 2 ^ 52 := by rw [← Nat.pow_add]; congr 1; omega
      · have hone : (k.log2 : Int) - 51 = 1 := by omega
        rw [hone, scaled, if_neg (by decide), Int.toNat_one, Nat.shiftLeft_eq, pow_one]
        show k * den / (den * 2) < 2 ^ 52
        rw [Nat.mul_comm den 2, Nat.mul_div_mul_right k 2 hd]
        omega
    rw [h, show ((k.log2 + den.log2 + 1 : Nat) : Int) - den.log2 - 52 = k.log2 - 51 by omega,
      if_pos hmissing]
    omega

theorem ofRatio_mul_eq (hk : 0 < k) (hbound : k < 2 ^ 53) (hd : 0 < den) :
    ofRatio false (k * den) den = finite false (k * 2 ^ (52 - k.log2)) (k.log2 - 52) := by
  have hhigh : k < 2 ^ (k.log2 + 1) := Nat.lt_log2_self
  have hlog : k.log2 < 53 := (Nat.log2_lt hk.ne').2 hbound
  have hne : (k * den == 0) = false := by
    rw [beq_eq_false_iff_ne]
    exact (Nat.mul_pos hk hd).ne'
  have hlt : k * 2 ^ (52 - k.log2) < 2 * normalBound := calc
    k * 2 ^ (52 - k.log2) < 2 ^ (k.log2 + 1) * 2 ^ (52 - k.log2) :=
      Nat.mul_lt_mul_of_pos_right hhigh (Nat.two_pow_pos _)
    _ = 2 ^ 53 := by rw [← Nat.pow_add]; congr 1; omega
    _ = 2 * normalBound := rfl
  have hscaled : scaled (k * den) den ((k.log2 : Int) - 52) = (k * 2 ^ (52 - k.log2) * den, den) := by
    rw [scaled_of_nonpos (by omega), show (-((k.log2 : Int) - 52)).toNat = 52 - k.log2 by omega,
      Nat.mul_right_comm]
  have hgreatest : ¬ (k.log2 : Int) - 52 > greatestExponent := by
    rw [greatestExponent]
    omega
  simp only [ofRatio, hne, exponentFor_mul hk hbound hd, hscaled, roundHalfEven_mul hd,
    beq_eq_false_iff_ne.2 hlt.ne, Bool.false_eq_true, if_false, hgreatest]

theorem ofRatio_mul (hbound : k < 2 ^ 53) (hd : 0 < den) :
    ofRatio false (k * den) den = ofNat k := by
  rcases Nat.eq_zero_or_pos k with rfl | hk
  · rw [Nat.zero_mul, ofNat, ofRatio, ofRatio]
    rfl
  · have hone : ofNat k = ofRatio false (k * 1) 1 := by rw [Nat.mul_one, ofNat]
    rw [hone, ofRatio_mul_eq hk hbound hd, ofRatio_mul_eq hk hbound Nat.one_pos]

theorem holds_ofNat (hbound : k < 2 ^ 53) : (ofNat k).Holds k := by
  rcases Nat.eq_zero_or_pos k with rfl | hk
  · exact ⟨0, leastExponent, rfl, by decide, (Nat.zero_mul _).symm⟩
  · have hlog : k.log2 < 53 := (Nat.log2_lt hk.ne').2 hbound
    refine ⟨k * 2 ^ (52 - k.log2), k.log2 - 52, ?_, by omega, ?_⟩
    · rw [← ofRatio_mul_eq hk hbound Nat.one_pos, Nat.mul_one, ofNat]
    · rw [show (-((k.log2 : Int) - 52)).toNat = 52 - k.log2 by omega]

theorem mul_of_holds (hx : x.Holds a) (hy : y.Holds b) (hbound : a * b < 2 ^ 53) :
    x.mul y = ofNat (a * b) := by
  obtain ⟨_, e, rfl, he, rfl⟩ := hx
  obtain ⟨_, f, rfl, hf, rfl⟩ := hy
  have hnum : a * 2 ^ (-e).toNat * (b * 2 ^ (-f).toNat) = a * b * 2 ^ (-(e + f)).toNat := by
    rw [show (-(e + f)).toNat = (-e).toNat + (-f).toNat by omega, Nat.pow_add,
      Nat.mul_mul_mul_comm]
  rw [mul, hnum, scaled_neg_of_nonpos (by omega)]
  exact ofRatio_mul hbound (Nat.two_pow_pos _)

theorem add_of_holds (hx : x.Holds a) (hy : y.Holds b) (hbound : a + b < 2 ^ 53) :
    x.add y = ofNat (a + b) := by
  obtain ⟨_, e, rfl, he, rfl⟩ := hx
  obtain ⟨_, f, rfl, hf, rfl⟩ := hy
  have hshift : ∀ {c : Nat} {h g : Int}, h ≤ 0 → g ≤ h →
      (c * 2 ^ (-h).toNat) <<< (h - g).toNat = c * 2 ^ (-g).toNat := fun {c h g} hh hg => by
    rw [Nat.shiftLeft_eq, Nat.mul_assoc, ← Nat.pow_add]
    congr 2
    omega
  have hsum : ∀ p : Nat, ((a * p : Nat) : Int) + (b * p : Nat) = ((a + b) * p : Nat) := fun p => by
    rw [Nat.add_mul, Int.natCast_add]
  have hsign : ∀ n : Nat, ¬ (n : Int) < 0 := fun n => Int.not_lt.2 (Int.natCast_nonneg n)
  simp only [add, hshift he (min_le_left e f), hshift hf (min_le_right e f), Bool.false_eq_true,
    if_false, hsum, hsign, Int.natAbs_natCast, scaled_neg_of_nonpos (min_le_of_left_le he),
    Bool.false_and, decide_false, ite_self]
  exact ofRatio_mul hbound (Nat.two_pow_pos _)

/-- A number that is written in decimal digits, with nothing but zeros after the point. -/
theorem ofDecimal_mul_pow (hbound : k < 2 ^ 53) (p : Nat) :
    ofDecimal false (k * 10 ^ p) (-p) = ofNat k := by
  rcases Nat.eq_zero_or_pos k with rfl | hk
  · rw [Nat.zero_mul]
    rfl
  have hpow : 0 < 10 ^ p := Nat.pow_pos (by decide)
  have hlong : (Text.natDigits (k * 10 ^ p)).length ≤ 16 + p := by
    refine (Nat.length_toDigits_le_iff (by decide) (by omega)).2 ?_
    rw [Nat.pow_add]
    exact Nat.mul_lt_mul_of_pos_right (hbound.trans (by decide)) hpow
  have hshort : p ≤ (Text.natDigits (k * 10 ^ p)).length := by
    by_contra h
    have := (Nat.length_toDigits_le_iff (b := 10) (by decide) (by omega)).1 (Nat.le_of_not_le h)
    exact absurd this (Nat.not_lt.2 (Nat.le_mul_of_pos_left _ hk))
  have hne : (k * 10 ^ p == 0) = false := beq_eq_false_iff_ne.2 (Nat.mul_pos hk hpow).ne'
  have hsmall : ¬ (-(p : Int) + ((Text.natDigits (k * 10 ^ p)).length : Int) < -400) := by omega
  have hgreat : ¬ (-(p : Int) + ((Text.natDigits (k * 10 ^ p)).length : Int) > 400) := by omega
  simp only [ofDecimal, hne, hsmall, hgreat, Bool.false_or, decide_false, Bool.false_eq_true,
    if_false, neg_neg, Int.toNat_natCast, Nat.pow_eq]
  split
  · exact ofRatio_mul hbound hpow
  · obtain rfl : p = 0 := by omega
    simp [ofNat]

end BackupProfiles.Binary64
