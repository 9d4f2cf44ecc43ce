import Mathlib.Tactic.SplitIfs

/-!
# The order of texts is the order of their bytes

Texts are compared character by character. They are stored as bytes, one to four for a character,
and comparing those comes to the same (`bytes_lt_iff`): a character that takes more bytes than
another is the greater one and starts with the greater byte, and of two that take as many, the bytes
are the digits of their numbers, the highest first (`Rising.digit`).
-/

namespace BackupProfiles.Text

/-- The bytes that a text is stored as. -/
def bytes (text : String) : List UInt8 := text.toUTF8.data.toList

theorem bytes_eq (text : String) : bytes text = text.toList.flatMap String.utf8EncodeChar := by
  rw [bytes, String.toUTF8_eq_toByteArray, ← String.utf8Encode_toList, List.utf8Encode,
    List.data_toByteArray]

/-- The numbers below a bound compare as the bytes they are written with, whatever follows. -/
def Rising (bound : Nat) (write : Nat → List UInt8) : Prop :=
  ∀ m n, m < n → n < bound → ∀ as bs, write m ++ as < write n ++ bs

theorem rising_first (bound base : Nat) (h : bound + base ≤ 256) :
    Rising bound fun n => [UInt8.ofNat (n % bound + base)] := by
  intro m n hmn hn as bs
  refine List.cons_lt_cons_iff.2 (Or.inl ?_)
  rw [UInt8.lt_iff_toNat_lt, UInt8.toNat_ofNat', UInt8.toNat_ofNat', Nat.mod_eq_of_lt hn,
    Nat.mod_eq_of_lt (Nat.lt_trans hmn hn)]
  omega

theorem Rising.digit {bound : Nat} {write : Nat → List UInt8} (h : Rising bound write) :
    Rising (bound * 64) fun n => write (n / 64) ++ [UInt8.ofNat (n % 64 + 128)] := by
  intro m n hmn hn as bs
  simp only [List.append_assoc]
  rcases Nat.lt_or_ge (m / 64) (n / 64) with hlt | hge
  · exact h _ _ hlt (by omega) _ _
  · have heq : m / 64 = n / 64 := by omega
    rw [heq]
    refine List.append_left_lt (List.cons_lt_cons_iff.2 (Or.inl ?_))
    rw [UInt8.lt_iff_toNat_lt, UInt8.toNat_ofNat', UInt8.toNat_ofNat']
    omega

theorem rising_two : Rising 0x800 fun n =>
    [UInt8.ofNat (n / 64 % 0x20 + 0xc0), UInt8.ofNat (n % 0x40 + 0x80)] :=
  (rising_first 0x20 0xc0 (by decide)).digit

theorem rising_three : Rising 0x10000 fun n =>
    [UInt8.ofNat (n / 4096 % 0x10 + 0xe0), UInt8.ofNat (n / 64 % 0x40 + 0x80),
      UInt8.ofNat (n % 0x40 + 0x80)] := by
  simpa [Nat.div_div_eq_div_mul] using (rising_first 0x10 0xe0 (by decide)).digit.digit

theorem rising_four : Rising 0x200000 fun n =>
    [UInt8.ofNat (n / 262144 % 0x08 + 0xf0), UInt8.ofNat (n / 4096 % 0x40 + 0x80),
      UInt8.ofNat (n / 64 % 0x40 + 0x80), UInt8.ofNat (n % 0x40 + 0x80)] := by
  simpa [Nat.div_div_eq_div_mul] using (rising_first 0x08 0xf0 (by decide)).digit.digit.digit

theorem utf8EncodeChar_append_lt {c d : Char} (h : c < d) (as bs : List UInt8) :
    String.utf8EncodeChar c ++ as < String.utf8EncodeChar d ++ bs := by
  have hlt : c.val.toNat < d.val.toNat := h
  have hbound : d.val.toNat < 0x110000 := by
    have hd : d.val.toNat < 0xd800 ∨ 0xdfff < d.val.toNat ∧ d.val.toNat < 0x110000 := d.valid
    omega
  simp only [String.utf8EncodeChar]
  split_ifs
  -- characters of one byte and those of different lengths differ in the first byte
  all_goals try
    refine List.cons_lt_cons_iff.2 (Or.inl ?_)
    rw [UInt8.lt_iff_toNat_lt, UInt8.toNat_ofNat', UInt8.toNat_ofNat']
    omega
  · exact rising_two _ _ hlt (by omega) as bs
  · exact rising_three _ _ hlt (by omega) as bs
  · exact rising_four _ _ hlt (by omega) as bs

theorem flatMap_utf8EncodeChar_lt : ∀ {cs ds : List Char}, cs < ds →
    cs.flatMap String.utf8EncodeChar < ds.flatMap String.utf8EncodeChar
  | [], [], h => absurd h (List.not_lt_nil _)
  | [], d :: ds, _ => by
    rcases hd : String.utf8EncodeChar d with _ | ⟨b, bs⟩
    · exact absurd hd String.utf8EncodeChar_ne_nil
    · rw [List.flatMap_nil, List.flatMap_cons, hd]
      exact List.nil_lt_cons _ _
  | _ :: _, [], h => absurd h (List.not_lt_nil _)
  | c :: cs, d :: ds, h => by
    rw [List.flatMap_cons, List.flatMap_cons]
    rcases List.cons_lt_cons_iff.1 h with hcd | ⟨rfl, hrest⟩
    · exact utf8EncodeChar_append_lt hcd _ _
    · exact List.append_left_lt (flatMap_utf8EncodeChar_lt hrest)

/-- Texts compare as their bytes do. -/
theorem bytes_lt_iff {a b : String} : bytes a < bytes b ↔ a < b := by
  have hlt : ∀ {a b : String}, a < b → bytes a < bytes b := by
    intro a b h
    rw [bytes_eq, bytes_eq]
    exact flatMap_utf8EncodeChar_lt h
  refine ⟨fun h => Decidable.byContradiction fun hab => ?_, hlt⟩
  by_cases hba : b < a
  · exact List.lt_asymm h (hlt hba)
  · rw [String.le_antisymm hab hba] at h
    exact List.lt_irrefl _ h

theorem bytes_le_iff {a b : String} : bytes a ≤ bytes b ↔ a ≤ b :=
  not_congr bytes_lt_iff

end BackupProfiles.Text
