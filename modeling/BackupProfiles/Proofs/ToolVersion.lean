import BackupProfiles.Profile.Flags
import BackupProfiles.Proofs.Text.Digits
import BackupProfiles.Proofs.Text.Split
import BackupProfiles.Proofs.Text.Trim
import Mathlib.Algebra.Order.Ring.Nat
import Mathlib.Data.Prod.Lex

/-!
# Texts of versions

A version is written as components between dots, and of each only the digits count that it starts
with (`ToolVersion.leadingNumber?_eq`). Blanks are no digits, so those at the end of a text change
none of its numbers (`ToolVersion.read?_eq`), and a text is read as its components are
(`ToolVersion.read?_written`). `Runtime.setVersion` sets a version in place; when that fails, what
is set before stays (`Runtime.run_setVersion`).
-/

namespace BackupProfiles

namespace ToolVersion

/-- The digits that a text starts with after blanks and any number of `v`, up to the first dot. -/
def majorDigits (text : String) : List Char :=
  (((Text.trimList text.toList).dropWhile (· == 'v')).takeWhile (· != '.')).takeWhile Char.isDigit

/-- A component of a version as it is written: digits, and what follows them. -/
structure Component where
  digits : List Char
  tail : List Char
  digits_digits : ∀ c ∈ digits, c.isDigit
  tail_head : ∀ c ∈ tail.head?, c.isDigit = false
  dot_notMem : '.' ∉ tail

/-- The numbers of a version, ordered by the first that differs. -/
def triple (v : ToolVersion) : ℕ ×ₗ ℕ ×ₗ ℕ := toLex (v.major, toLex (v.minor, v.patch))

variable {cs blanks : List Char} {parts : List (List Char)} {text : String} {v : ToolVersion}

theorem takeWhile_isDigit_of_head (h : ∀ c ∈ cs.head?, c.isDigit = false) :
    cs.takeWhile Char.isDigit = [] := by
  rcases cs with _ | ⟨c, cs⟩
  · rfl
  · rw [List.takeWhile_cons_of_neg]
    simp [h c rfl]

namespace Component

def chars (c : Component) : List Char := c.digits ++ c.tail

/-- The number that the digits stand for, zero if there are none. -/
def number (c : Component) : Nat := Nat.ofDigitChars 10 c.digits 0

/-- A number in decimal. -/
def ofNat (n : Nat) : Component :=
  ⟨Text.natDigits n, [], fun _ => Text.isDigit_of_mem_natDigits, nofun, List.not_mem_nil⟩

theorem number_ofNat (n : Nat) : (ofNat n).number = n :=
  Nat.ofDigitChars_ten_toDigits

theorem chars_ofNat (n : Nat) : (ofNat n).chars = Text.natDigits n := List.append_nil _

theorem takeWhile_chars (c : Component) : c.chars.takeWhile Char.isDigit = c.digits := by
  rw [chars, List.takeWhile_append_of_pos c.digits_digits,
    takeWhile_isDigit_of_head c.tail_head, List.append_nil]

theorem dot_notMem_chars (c : Component) : '.' ∉ c.chars := by
  intro h
  rcases List.mem_append.1 h with h | h
  · exact absurd (c.digits_digits _ h) (by decide)
  · exact c.dot_notMem h

end Component

section Numbers

/-- A component counts by its leading digits, when they stand for a number of 64 bits. -/
theorem leadingNumber?_eq (cs : List Char) : leadingNumber? cs =
    if cs.takeWhile Char.isDigit = [] ∨
      2 ^ 64 - 1 < Nat.ofDigitChars 10 (cs.takeWhile Char.isDigit) 0 then none
    else some (Nat.ofDigitChars 10 (cs.takeWhile Char.isDigit) 0) := by
  have hdigits : ∀ c ∈ cs.takeWhile Char.isDigit, c.isDigit := fun c => List.mem_takeWhile_imp
  have hall : (cs.takeWhile Char.isDigit).all Char.isDigit = true := List.all_eq_true.2 hdigits
  have hbound : Text.word64Bound = 2 ^ 64 := rfl
  rw [leadingNumber?, Text.isDigitIn_ten, Text.readNat?, Text.readNatIn?, Text.isDigitIn_ten, hall,
    Text.valueIn_ten hdigits, hbound]
  rcases cs.takeWhile Char.isDigit with _ | ⟨d, ds⟩
  · rfl
  · generalize Nat.ofDigitChars 10 (d :: ds) 0 = n
    show (some n).filter (fun k => decide (k < 2 ^ 64)) = _
    rw [Option.filter_some]
    by_cases hn : n < 2 ^ 64
    · rw [if_pos (decide_eq_true hn), if_neg]
      rintro (hnil | hlarge)
      · cases hnil
      · omega
    · rw [if_neg (by simpa using hn), if_pos (Or.inr (by omega))]

theorem leadingNumber?_eq_none_iff : leadingNumber? cs = none ↔
    cs.takeWhile Char.isDigit = [] ∨
      2 ^ 64 - 1 < Nat.ofDigitChars 10 (cs.takeWhile Char.isDigit) 0 := by
  rw [leadingNumber?_eq]
  split
  · exact iff_of_true rfl ‹_›
  · exact iff_of_false (Option.some_ne_none _) ‹_›

theorem lt_of_leadingNumber? {n : Nat} (h : leadingNumber? cs = some n) : n < 2 ^ 64 := by
  rw [leadingNumber?_eq] at h
  split at h
  · cases h
  · obtain rfl := Option.some.inj h
    omega

theorem leadingNumber?_append_blanks (h : ∀ c ∈ blanks, Text.isBlank c = true) (cs : List Char) :
    leadingNumber? (cs ++ blanks) = leadingNumber? cs := by
  have hstop : blanks.takeWhile Char.isDigit = [] := takeWhile_isDigit_of_head fun c hc => by
    by_contra hdigit
    have hblank := h c (List.mem_of_mem_head? hc)
    rw [Text.isBlank_of_isDigit (by simpa using hdigit)] at hblank
    cases hblank
  have hdigits : (cs ++ blanks).takeWhile Char.isDigit = cs.takeWhile Char.isDigit := by
    rw [List.takeWhile_append, hstop]
    split
    · rename_i hlength
      rw [List.append_nil]
      exact ((List.takeWhile_sublist _).eq_of_length hlength).symm
    · rfl
  rw [leadingNumber?_eq, leadingNumber?_eq, hdigits]

/-- The numbers of the components of a text. -/
def numbers? (cs : List Char) : List (Option Nat) := (Text.splitChars '.' cs).map leadingNumber?

/-- Blanks after the last component do not count. -/
theorem numbers?_joinChars (h : ∀ c ∈ blanks, Text.isBlank c = true) :
    ∀ {parts : List (List Char)}, parts ≠ [] → (∀ part ∈ parts, '.' ∉ part) →
      numbers? (Text.joinChars '.' parts ++ blanks) = parts.map leadingNumber?
  | [part], _, hparts => by
    have hwhole : '.' ∉ part ++ blanks := by
      intro hdot
      rcases List.mem_append.1 hdot with hdot | hdot
      · exact hparts part List.mem_cons_self hdot
      · exact absurd (h _ hdot) (by decide)
    rw [numbers?, Text.joinChars, Text.splitChars_of_notMem hwhole, List.map_singleton,
      leadingNumber?_append_blanks h, List.map_singleton]
  | part :: next :: parts, _, hparts => by
    rw [List.forall_mem_cons] at hparts
    rw [numbers?, Text.joinChars, List.append_assoc, List.cons_append,
      Text.splitChars_append_sep hparts.1, List.map_cons, List.map_cons]
    · exact congrArg _ (numbers?_joinChars h (List.cons_ne_nil next parts) hparts.2)
    · simp

theorem numbers?_append_blanks (h : ∀ c ∈ blanks, Text.isBlank c = true) (cs : List Char) :
    numbers? (cs ++ blanks) = numbers? cs := by
  have hjoined := numbers?_joinChars h (Text.splitChars_ne_nil '.' cs)
    fun part => Text.notMem_of_mem_splitChars
  rwa [Text.joinChars_splitChars] at hjoined

/-- Neither do blanks at the end of a text, whatever `v` it starts with. -/
theorem numbers?_dropWhile_append_blanks (h : ∀ c ∈ blanks, Text.isBlank c = true)
    (cs : List Char) :
    numbers? ((cs ++ blanks).dropWhile (· == 'v')) = numbers? (cs.dropWhile (· == 'v')) := by
  rw [List.dropWhile_append]
  split
  · -- nothing is left but blanks, and those are no `v`
    rename_i hempty
    have hrest : blanks.dropWhile (· == 'v') = blanks := by
      rcases blanks with _ | ⟨c, blanks⟩
      · rfl
      · rw [List.dropWhile_cons_of_neg]
        rintro hv
        have hblank := h c List.mem_cons_self
        rw [beq_iff_eq.1 hv] at hblank
        exact absurd hblank (by decide)
    rw [hrest, List.isEmpty_iff.1 hempty]
    exact numbers?_append_blanks h []
  · exact numbers?_append_blanks h _

end Numbers

section Reading

/-- The version that the numbers of the components make up. -/
def ofNumbers? (ns : List (Option Nat)) : Option ToolVersion :=
  (ns.head?.join).map fun a => ofNumbers a ((ns[1]?.join).getD 0) ((ns[2]?.join).getD 0)

theorem read?_eq (text : String) :
    read? text = ofNumbers? (numbers? ((Text.dropBlanks text.toList).dropWhile (· == 'v'))) := by
  obtain ⟨blanks, hblanks, heq⟩ := Text.exists_dropBlanks_eq text.toList
  rw [heq, numbers?_dropWhile_append_blanks hblanks]
  rfl

/-- Reading fails exactly for want of a first number of 64 bits. -/
theorem read?_eq_none_iff (text : String) : read? text = none ↔
    majorDigits text = [] ∨ 2 ^ 64 - 1 < Nat.ofDigitChars 10 (majorDigits text) 0 := by
  have hfirst : (numbers? ((Text.trimList text.toList).dropWhile (· == 'v'))).head? =
      some (leadingNumber? (((Text.trimList text.toList).dropWhile (· == 'v')).takeWhile
        (· != '.'))) := by
    rw [numbers?, List.head?_map, Text.head?_splitChars]
    rfl
  have hread : read? text =
      ofNumbers? (numbers? ((Text.trimList text.toList).dropWhile (· == 'v'))) := rfl
  rw [hread, ofNumbers?, hfirst, Option.map_eq_none_iff]
  exact leadingNumber?_eq_none_iff

theorem lt_of_numbers? {i n : Nat} (h : (numbers? cs)[i]?.join = some n) : n < 2 ^ 64 := by
  rw [Option.join_eq_some_iff, numbers?, List.getElem?_map, Option.map_eq_some_iff] at h
  obtain ⟨component, -, hn⟩ := h
  exact lt_of_leadingNumber? hn

theorem getD_lt_of_numbers? (cs : List Char) (i : Nat) :
    ((numbers? cs)[i]?.join).getD 0 < 2 ^ 64 := by
  rcases hn : (numbers? cs)[i]?.join with _ | n
  · exact Nat.two_pow_pos 64
  · exact lt_of_numbers? hn

/-- What is read is as it is written: no major number of a minor release alone, no number that is
too large. -/
theorem lt_of_read? (h : read? text = some v) :
    v.major < firstMinorAlone ∧ v.minor < 2 ^ 64 ∧ v.patch < 2 ^ 64 := by
  rw [read?_eq] at h
  obtain ⟨a, ha, rfl⟩ := Option.map_eq_some_iff.1 h
  rw [List.head?_eq_getElem?] at ha
  rw [ofNumbers]
  split
  · exact ⟨(by decide : 0 < firstMinorAlone), lt_of_numbers? ha, getD_lt_of_numbers? _ 1⟩
  · exact ⟨Nat.lt_of_not_le ‹_›, getD_lt_of_numbers? _ 1, getD_lt_of_numbers? _ 2⟩

/-- The number of a component, a missing one counting as zero. -/
def numberAt (others : List Component) (i : Nat) : Nat :=
  (others[i]?.map Component.number).getD 0

theorem leadingNumber?_chars {c : Component} (hbound : c.number < 2 ^ 64) :
    leadingNumber? c.chars = if c.digits = [] then none else some c.number := by
  rw [leadingNumber?_eq, c.takeWhile_chars]
  refine if_congr (or_iff_left fun hlarge => ?_) rfl rfl
  rw [Component.number] at hbound
  omega

theorem getD_leadingNumber?_chars {c : Component} (hbound : c.number < 2 ^ 64) :
    (leadingNumber? c.chars).getD 0 = c.number := by
  rw [leadingNumber?_chars hbound]
  split
  · rename_i hnil
    rw [Component.number, hnil]
    rfl
  · rfl

theorem getD_numbers_chars {others : List Component} (hbound : ∀ c ∈ others, c.number < 2 ^ 64)
    (i : Nat) :
    (((others.map Component.chars).map leadingNumber?)[i]?.join).getD 0 = numberAt others i := by
  rw [List.getElem?_map, List.getElem?_map, numberAt]
  rcases hi : others[i]? with _ | c
  · rfl
  · exact getD_leadingNumber?_chars (hbound c (List.mem_of_getElem? hi))

/-- The first digit stops the dropping of blanks and then of `v`. -/
theorem dropWhile_dropBlanks_digit {pre : List Char} (hpre : ∀ c ∈ pre, Text.isBlank c = true)
    (vs : Nat) {d : Char} (hd : d.isDigit) (cs : List Char) :
    (Text.dropBlanks (pre ++ (List.replicate vs 'v' ++ d :: cs))).dropWhile (· == 'v') =
      d :: cs := by
  have hblank : ∀ c ∈ (List.replicate vs 'v' ++ d :: cs).head?, Text.isBlank c = false := by
    intro c hc
    rcases vs with _ | vs
    · obtain rfl := Option.some.inj hc
      exact Text.isBlank_of_isDigit hd
    · obtain rfl := Option.some.inj hc
      decide
  have hall : ∀ c ∈ List.replicate vs 'v', (c == 'v') = true := fun c hc =>
    beq_iff_eq.2 (List.eq_of_mem_replicate hc)
  rw [Text.dropBlanks_append hpre, Text.dropBlanks_of_head hblank,
    List.dropWhile_append_of_pos hall, List.dropWhile_cons_of_neg]
  intro hv
  rw [beq_iff_eq.1 hv] at hd
  exact absurd hd (by decide)

/-- What a text of components is read as, with blanks around it and any number of `v` in front. -/
theorem read?_written {pre post : List Char} {vs : Nat} {a : Component} {others : List Component}
    (hpre : ∀ c ∈ pre, Text.isBlank c = true) (hpost : ∀ c ∈ post, Text.isBlank c = true)
    (ha : a.digits ≠ []) (hbound : ∀ c ∈ a :: others, c.number < 2 ^ 64) :
    read? (String.ofList (pre ++ (List.replicate vs 'v' ++
        (Text.joinChars '.' ((a :: others).map Component.chars) ++ post)))) =
      some (ofNumbers a.number (numberAt others 0) (numberAt others 1)) := by
  rw [List.forall_mem_cons] at hbound
  obtain ⟨rest, hrest⟩ : ∃ rest, Text.joinChars '.' (a.chars :: others.map Component.chars) =
      a.chars ++ rest := Text.exists_joinChars_cons _ _
  obtain ⟨d, ds, hd⟩ := List.exists_cons_of_ne_nil ha
  have hdigit : d.isDigit := a.digits_digits d (by rw [hd]; exact List.mem_cons_self)
  have hjoined : Text.joinChars '.' ((a :: others).map Component.chars) ++ post =
      d :: (ds ++ a.tail ++ rest ++ post) := by
    rw [List.map_cons, hrest, Component.chars, hd]
    simp
  have hdots : ∀ part ∈ (a :: others).map Component.chars, '.' ∉ part := by
    intro part hpart
    obtain ⟨c, -, rfl⟩ := List.mem_map.1 hpart
    exact c.dot_notMem_chars
  have hne : (a :: others).map Component.chars ≠ [] := List.cons_ne_nil _ _
  have hfirst : leadingNumber? a.chars = some a.number := by
    rw [leadingNumber?_chars hbound.1, if_neg ha]
  rw [read?_eq, String.toList_ofList, hjoined, dropWhile_dropBlanks_digit hpre vs hdigit,
    ← hjoined, numbers?_joinChars hpost hne hdots, ofNumbers?, List.map_cons, List.map_cons,
    List.getElem?_cons_succ, List.getElem?_cons_succ, getD_numbers_chars hbound.2,
    getD_numbers_chars hbound.2, List.head?_cons, hfirst]
  rfl

/-- The text of a version is read back. -/
theorem read?_text (hmajor : v.major < firstMinorAlone) (hminor : v.minor < 2 ^ 64)
    (hpatch : v.patch < 2 ^ 64) : read? v.text = some v := by
  have hbound : ∀ c ∈ [Component.ofNat v.major, .ofNat v.minor, .ofNat v.patch],
      c.number < 2 ^ 64 := by
    simp only [List.forall_mem_cons, Component.number_ofNat]
    exact ⟨hmajor.trans (by decide), hminor, hpatch, nofun⟩
  have htext : v.text = String.ofList ([] ++ (List.replicate 0 'v' ++ (Text.joinChars '.'
      ([Component.ofNat v.major, .ofNat v.minor, .ofNat v.patch].map Component.chars) ++ []))) := by
    rw [← String.toList_inj]
    simp [ToolVersion.text, Text.natText, Component.chars_ofNat, Text.joinChars]
  rw [htext, read?_written (List.forall_mem_nil _) (List.forall_mem_nil _)
    (Text.natDigits_ne_nil v.major) hbound, numberAt, numberAt]
  simp [Component.number_ofNat, ofNumbers, hmajor]

end Reading

theorem isAllBlank_of_read? (h : read? text = some v) : Text.isAllBlank text = false := by
  by_contra hblank
  rw [Bool.not_eq_false, Text.isAllBlank, List.all_eq_true] at hblank
  have hnil : Text.dropBlanks text.toList = [] := by
    rw [← List.append_nil text.toList, Text.dropBlanks_append hblank]
    rfl
  rw [read?_eq, hnil] at h
  cases h

theorem reaches_iff (v w : ToolVersion) : v.reaches w = true ↔ w.triple ≤ v.triple := by
  simp [reaches, triple, Prod.Lex.toLex_le_toLex]

end ToolVersion

theorem secondaryName_eq_from_iff (usesSourceFlags : Bool) (name : String) :
    secondaryName usesSourceFlags name = "from-" ++ name ↔ usesSourceFlags = true := by
  cases usesSourceFlags with
  | true => exact iff_of_true rfl rfl
  | false =>
    refine iff_of_false (fun h => ?_) Bool.false_ne_true
    have hlength := congrArg String.length h
    simp only [secondaryName, Bool.false_eq_true, if_false, String.length_append] at hlength
    have hfrom : "from-".length = 5 := rfl
    have htwo : "2".length = 1 := rfl
    omega

namespace Runtime

/-- What is set before stays when setting a version fails. -/
theorem run_setVersion (rt : Runtime) (version : String) :
    ((setVersion version).run.run rt) =
      match rt.setVersion? version with
      | some changed => (.ok (), changed)
      | none => (.error (.invalidVersion version), rt) := by
  rw [setVersion, setVersion?]
  split
  · rfl
  · rcases ToolVersion.read? version with _ | v
    · rfl
    · rfl

theorem setVersion?_of_read? {version : String} {v : ToolVersion}
    (h : ToolVersion.read? version = some v) (rt : Runtime) :
    rt.setVersion? version = some { rt with version? := some v } := by
  rw [setVersion?, ToolVersion.isAllBlank_of_read? h, h]
  rfl

end Runtime

namespace ToolVersion

/-- Only a text without a first number of 64 bits cannot be read, and setting it changes nothing.
Every other text has the numbers of its first three components, shifted by one when the first is no
major number; its version is read back from its own text, and the flags of a source start with
`from-` when it is at least 0.14.0. -/
theorem version_texts :
    (∀ text, read? text = none ↔
        majorDigits text = [] ∨ 2 ^ 64 - 1 < Nat.ofDigitChars 10 (majorDigits text) 0)
      ∧ (∀ text v, read? text = some v → read? v.text = some v)
      ∧ (∀ (pre post : List Char) (vs : Nat) (a : Component) (others : List Component),
          (∀ c ∈ pre, Text.isBlank c = true) → (∀ c ∈ post, Text.isBlank c = true) →
          a.digits ≠ [] → (∀ c ∈ a :: others, c.number < 2 ^ 64) →
          read? (String.ofList (pre ++ (List.replicate vs 'v' ++
              (Text.joinChars '.' ((a :: others).map Component.chars) ++ post)))) =
            some (if a.number < 10 then ⟨a.number, numberAt others 0, numberAt others 1⟩
              else ⟨0, a.number, numberAt others 0⟩))
      ∧ (∀ text v, read? text = some v → ∀ rt : Runtime,
          ((Runtime.setVersion text).run.run rt) = (.ok (), { rt with version? := some v }) ∧
            ∀ name, secondaryName (Runtime.usesSourceFlags { rt with version? := some v }) name =
              "from-" ++ name ↔ toLex (0, toLex (14, 0)) ≤ v.triple)
      ∧ ∀ text (rt changed : Runtime) why,
          ((Runtime.setVersion text).run.run rt) = (.error why, changed) →
            read? text = none ∧ why = .invalidVersion text ∧ changed = rt := by
  refine ⟨read?_eq_none_iff, ?back, ?written, ?set, ?failed⟩
  case back =>
    intro text v h
    obtain ⟨hmajor, hminor, hpatch⟩ := lt_of_read? h
    exact read?_text hmajor hminor hpatch
  case written =>
    intro pre post vs a others hpre hpost ha hbound
    have hten : firstMinorAlone = 10 := rfl
    rw [read?_written hpre hpost ha hbound, ofNumbers, hten]
    split <;> split <;> first | rfl | omega
  case set =>
    intro text v h rt
    refine ⟨?_, fun name => ?_⟩
    · rw [Runtime.run_setVersion, Runtime.setVersion?_of_read? h]
    · rw [secondaryName_eq_from_iff]
      exact reaches_iff v namesSources
  case failed =>
    intro text rt changed why h
    rcases hread : read? text with _ | v
    · rw [Runtime.run_setVersion] at h
      rcases hset : rt.setVersion? text with _ | other
      · rw [hset] at h
        obtain ⟨hwhy, hrt⟩ := Prod.mk.inj h
        exact ⟨rfl, (Except.error.inj hwhy).symm, hrt.symm⟩
      · rw [hset] at h
        cases (Prod.mk.inj h).1
    · rw [Runtime.run_setVersion, Runtime.setVersion?_of_read? hread] at h
      cases (Prod.mk.inj h).1

theorem version_texts_padded :
    read? "18446744073709551616" = none
      ∧ read? "latest" = none
      ∧ read? "\tvv014-rc.x. 7\n" = some ⟨0, 14, 0⟩
      ∧ read? (ToolVersion.text ⟨0, 14, 0⟩) = some ⟨0, 14, 0⟩
      ∧ secondaryName (Runtime.usesSourceFlags { Runtime.initial with version? := some ⟨0, 14, 0⟩ })
          "repo" = "from-repo"
      ∧ ((Runtime.setVersion "latest").run.run Runtime.initial) =
          (.error (.invalidVersion "latest"), Runtime.initial) := by
  obtain ⟨hnone, hback, hwritten, hset, hfailed⟩ := version_texts
  have hread : read? "\tvv014-rc.x. 7\n" = some ⟨0, 14, 0⟩ :=
    hwritten ['\t'] ['\n'] 2
      ⟨['0', '1', '4'], ['-', 'r', 'c'], List.all_eq_true.1 rfl, by rintro _ ⟨⟩; rfl, by decide⟩
      [⟨[], ['x'], nofun, by rintro _ ⟨⟩; rfl, by decide⟩,
        ⟨[], [' ', '7'], nofun, by rintro _ ⟨⟩; rfl, by decide⟩]
      (List.all_eq_true.1 rfl) (List.all_eq_true.1 rfl) nofun (by decide)
  have hlarge : read? "18446744073709551616" = none :=
    (hnone "18446744073709551616").2 (Or.inr (by decide))
  have hrun : ((Runtime.setVersion "latest").run.run Runtime.initial) =
      (.error (.invalidVersion "latest"), Runtime.initial) := rfl
  obtain ⟨hlatest, -, -⟩ := hfailed "latest" Runtime.initial Runtime.initial _ hrun
  exact ⟨hlarge, hlatest, hread, hback _ _ hread,
    ((hset _ _ hread Runtime.initial).2 "repo").2 (by decide), hrun⟩

end ToolVersion

end BackupProfiles
