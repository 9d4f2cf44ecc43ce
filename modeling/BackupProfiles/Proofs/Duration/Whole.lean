import BackupProfiles.Proofs.Duration.Pattern
import BackupProfiles.Proofs.Numeric.Whole
import BackupProfiles.Proofs.Text.Trim

/-!
# Durations of whole seconds

Whole amounts of hours, minutes and seconds are held exactly by doubles, and so are their products
and sums as long as the sum is below `2 ^ 53` (`total_whole`): no partial sum is greater than the
whole one. A duration of that many seconds is written as such tokens, so it is read back.
-/

namespace BackupProfiles.Duration

theorem ofSeconds?_of_holds {x : Binary64} {k : Nat} (hx : x.Holds k) (hbound : k < 2 ^ 53) :
    ofSeconds? x = some ⟨k * nanosecondsPerSecond⟩ := by
  obtain ⟨_, e, rfl, he, rfl⟩ := hx
  have hpow : 0 < 2 ^ (-e).toNat := Nat.two_pow_pos _
  have hword : Text.word64Bound = 2 ^ 64 := rfl
  have hrange : ¬ 2 ^ 64 * 2 ^ (-e).toNat ≤ k * 2 ^ (-e).toNat :=
    Nat.not_le.2 (Nat.mul_lt_mul_of_pos_right (by omega) hpow)
  have hround : Binary64.roundHalfEven (k * 2 ^ (-e).toNat * nanosecondsPerSecond) (2 ^ (-e).toNat)
      = k * nanosecondsPerSecond := by
    rw [Nat.mul_right_comm, Binary64.roundHalfEven_mul hpow]
  simp only [ofSeconds?, Binary64.scaled_neg_of_nonpos he, hword, hrange, hround]
  rfl

/-- The seconds of a unit that is no fraction of a second. -/
def TimeUnit.wholeSeconds? : TimeUnit → Option Nat
  | second => some 1
  | minute => some 60
  | hour => some 3600
  | _ => none

theorem TimeUnit.seconds_whole {u : TimeUnit} {n : Nat} (h : u.wholeSeconds? = some n) :
    u.seconds.Holds n ∧ 0 < n := by
  cases u <;> cases h
  · exact ⟨Binary64.holds_ofNat (by decide), by decide⟩
  · exact ⟨Binary64.holds_ofNat (by decide), by decide⟩
  · exact ⟨Binary64.holds_ofNat (by decide), by decide⟩

/-- The number that decimal digits stand for, when there is nothing but zeros after the point. -/
def Amount.whole? {D : DigitClass} (a : Amount D) : Option Nat :=
  let digits := Text.valueIn 10 (a.whole ++ a.places)
  if 10 ^ a.places.length ∣ digits then some (digits / 10 ^ a.places.length) else none

theorem Amount.value_whole {a : Amount .decimal} {k : Nat} (h : a.whole? = some k)
    (hbound : k < 2 ^ 53) : a.value = Binary64.ofNat k := by
  rw [whole?] at h
  split at h
  next hdvd =>
    obtain rfl := Option.some.inj h
    rw [value, ← Binary64.ofDecimal_mul_pow hbound a.places.length, Nat.div_mul_cancel hdvd]
  next => cases h

/-- The seconds of a whole amount of a unit that is no fraction of a second. -/
def Token.wholeSeconds? {D : DigitClass} (t : Token D) : Option Nat :=
  t.amount.whole?.bind fun k => t.word.unit.wholeSeconds?.map (k * ·)

theorem Token.seconds_whole {t : Token .decimal} {n : Nat} (h : t.wholeSeconds? = some n)
    (hbound : n < 2 ^ 53) : t.term.seconds = Binary64.ofNat n := by
  obtain ⟨k, hk, h⟩ := Option.bind_eq_some_iff.1 h
  obtain ⟨f, hf, rfl⟩ := Option.map_eq_some_iff.1 h
  obtain ⟨hunit, hpos⟩ := TimeUnit.seconds_whole hf
  have hkbound : k < 2 ^ 53 := (Nat.le_mul_of_pos_right k hpos).trans_lt hbound
  have hamount : t.amount.value.Holds k := by
    rw [Amount.value_whole hk hkbound]
    exact Binary64.holds_ofNat hkbound
  exact Binary64.mul_of_holds hamount hunit hbound

theorem foldl_add_whole {ts : List (Token .decimal)} {ns : List Nat} {x : Binary64} {a : Nat}
    (hx : x.Holds a) (h : ts.mapM Token.wholeSeconds? = some ns) (hbound : a + ns.sum < 2 ^ 53) :
    ((ts.map Token.term).foldl (fun sum t => sum.add t.seconds) x).Holds (a + ns.sum) := by
  -- on the tokens, for any start: with the rest ahead the sum so far is below the bound too
  induction ts generalizing ns x a with
  | nil =>
    obtain rfl : [] = ns := Option.some.inj h
    exact hx
  | cons t ts ih =>
    rw [List.mapM_cons] at h
    obtain ⟨n, hn, h⟩ := Option.bind_eq_some_iff.1 h
    obtain ⟨ns, hns, h⟩ := Option.bind_eq_some_iff.1 h
    obtain rfl := Option.some.inj h
    rw [List.sum_cons, ← Nat.add_assoc] at hbound ⊢
    have hadd : (x.add t.term.seconds).Holds (a + n) := by
      rw [Token.seconds_whole hn (by omega),
        Binary64.add_of_holds hx (Binary64.holds_ofNat (by omega)) (by omega)]
      exact Binary64.holds_ofNat (by omega)
    exact ih hadd hns hbound

/-- Whole seconds are added without an error. -/
theorem total_whole {ts : List (Token .decimal)} {ns : List Nat}
    (h : ts.mapM Token.wholeSeconds? = some ns) (hbound : ns.sum < 2 ^ 53) :
    total ts = .ok ⟨ns.sum * nanosecondsPerSecond⟩ := by
  have hzero : (Binary64.zero false).Holds 0 := ⟨0, Binary64.leastExponent, rfl, by decide, by simp⟩
  have hsum := foldl_add_whole hzero h (by omega)
  rw [Nat.zero_add] at hsum
  rw [total, ofSeconds?_of_holds hsum hbound]

/-! ## Writing whole seconds -/

namespace Token

/-- A number with a unit. -/
def ofNat (n : Nat) (w : UnitWord) : Token .decimal :=
  ⟨⟨Text.natDigits n, [], Text.natDigits_ne_nil n, fun _ => Text.isDigit_of_mem_natDigits,
    by simp⟩, w⟩

theorem text_ofNat (n : Nat) (w : UnitWord) : (ofNat n w).text = Text.natDigits n ++ w.letters := by
  rw [text, Amount.text, Amount.fraction, ofNat, if_pos rfl, List.append_nil]

theorem wholeSeconds?_ofNat (n : Nat) (w : UnitWord) :
    (ofNat n w).wholeSeconds? = w.unit.wholeSeconds?.map (n * ·) := by
  simp [wholeSeconds?, Amount.whole?, ofNat, Text.valueIn_natDigits]

theorem isBlank_of_mem_text {t : Token .decimal} {c : Char} (h : c ∈ t.text) :
    Text.isBlank c = false := by
  have hdigit : ∀ d : Char, DigitClass.decimal.contains d → Text.isBlank d = false := fun d =>
    Text.isBlank_of_isDigit
  rcases List.mem_append.1 h with h | h
  · rcases List.mem_append.1 h with h | h
    · exact hdigit c (t.amount.whole_digits c h)
    · rcases t.amount.fraction_cases with ⟨-, hf⟩ | ⟨-, hf⟩ <;> rw [hf] at h
      · cases h
      · rcases List.mem_cons.1 h with rfl | h
        · rfl
        · exact hdigit c (t.amount.places_digits c h)
  · cases hw : t.word <;> rw [hw] at h <;>
      simp only [UnitWord.letters, List.mem_cons, List.not_mem_nil, or_false] at h <;>
      rcases h with rfl | rfl <;> rfl

theorem trimList_flatMap_text (ts : List (Token .decimal)) :
    Text.trimList (ts.flatMap text) = ts.flatMap text := by
  refine Text.trimList_eq_self fun c hc => ?_
  obtain ⟨t, -, hc⟩ := List.mem_flatMap.1 hc
  exact isBlank_of_mem_text hc

/-- Hours and minutes, without those that are zero. -/
def front (s : Nat) : List (Token .decimal) :=
  (if s / 3600 = 0 then [] else [ofNat (s / 3600) .hour])
    ++ (if s % 3600 / 60 = 0 then [] else [ofNat (s % 3600 / 60) .minute])

/-- The tokens that whole seconds are written with. -/
def ofSeconds (s : Nat) : List (Token .decimal) :=
  front s ++ if s % 60 = 0 ∧ front s ≠ [] then [] else [ofNat (s % 60) .second]

theorem ofSeconds_ne_nil (s : Nat) : ofSeconds s ≠ [] := by
  rw [ofSeconds]
  split
  next h => simpa using h.2
  next => simp

theorem mapM_wholeSeconds?_append {ts us : List (Token .decimal)} {ns ms : List Nat}
    (hts : ts.mapM wholeSeconds? = some ns) (hus : us.mapM wholeSeconds? = some ms) :
    (ts ++ us).mapM wholeSeconds? = some (ns ++ ms) := by
  rw [List.mapM_append, hts, hus]
  rfl

/-- A zero may be left out. -/
theorem exists_mapM_wholeSeconds? {n f : Nat} {w : UnitWord} {P : Prop} [Decidable P]
    (hw : w.unit.wholeSeconds? = some f) (hP : P → n = 0) :
    ∃ ns, (if P then [] else [ofNat n w]).mapM wholeSeconds? = some ns ∧ ns.sum = n * f := by
  split
  next h => exact ⟨[], rfl, by rw [hP h, Nat.zero_mul]; rfl⟩
  next => exact ⟨[n * f], by simp [wholeSeconds?_ofNat, hw], by simp⟩

theorem mapM_wholeSeconds?_ofSeconds (s : Nat) :
    ∃ ns, (ofSeconds s).mapM wholeSeconds? = some ns ∧ ns.sum = s := by
  obtain ⟨hours, hh, hsum⟩ := exists_mapM_wholeSeconds? (w := .hour) rfl (id : s / 3600 = 0 → _)
  obtain ⟨minutes, hm, hsum'⟩ :=
    exists_mapM_wholeSeconds? (w := .minute) rfl (id : s % 3600 / 60 = 0 → _)
  obtain ⟨seconds, hs, hsum''⟩ :=
    exists_mapM_wholeSeconds? (w := .second) rfl (And.left : s % 60 = 0 ∧ front s ≠ [] → _)
  refine ⟨_, mapM_wholeSeconds?_append (mapM_wholeSeconds?_append hh hm) hs, ?_⟩
  rw [List.sum_append, List.sum_append, hsum, hsum', hsum'']
  omega

end Token

theorem toList_text_whole (s : Nat) :
    (text ⟨s * nanosecondsPerSecond⟩).toList = (Token.ofSeconds s).flatMap Token.text := by
  have hpos : 0 < nanosecondsPerSecond := by decide
  have hfront : ((if s / 3600 = 0 then [] else Text.natDigits (s / 3600) ++ ['h'])
      ++ (if s % 3600 / 60 = 0 then [] else Text.natDigits (s % 3600 / 60) ++ ['m']))
      = (Token.front s).flatMap Token.text := by
    rw [Token.front, List.flatMap_append]
    congr 1 <;> split <;> simp [Token.text_ofNat, UnitWord.letters]
  have hback : (s % 60 ≠ 0 ∨ (Token.front s).flatMap Token.text = []) ↔
      ¬ (s % 60 = 0 ∧ Token.front s ≠ []) := by
    rw [not_and_or, not_not]
    refine or_congr_right ⟨fun h => ?_, fun h => by rw [h]; rfl⟩
    by_contra hne
    exact Token.flatMap_text_ne_nil hne h
  simp only [text, Nat.mul_div_cancel _ hpos, Nat.mul_mod_left, Nat.zero_div, ne_eq,
    not_true_eq_false, if_false, hfront, String.toList_ofList]
  rw [Token.ofSeconds, List.flatMap_append]
  congr 1
  by_cases h : s % 60 = 0 ∧ Token.front s ≠ []
  · rw [if_neg fun hwritten => hback.1 hwritten h, if_pos h]
    rfl
  · rw [if_pos (hback.2 h), if_neg h]
    simp [Token.text_ofNat, UnitWord.letters]

theorem read_text_whole {s : Nat} (hbound : s < 2 ^ 53) :
    read (text ⟨s * nanosecondsPerSecond⟩) = .ok ⟨s * nanosecondsPerSecond⟩ := by
  obtain ⟨ns, hns, hsum⟩ := Token.mapM_wholeSeconds?_ofSeconds s
  have htrim : Text.trimList (text ⟨s * nanosecondsPerSecond⟩).toList
      = (Token.ofSeconds s).flatMap Token.text := by
    rw [toList_text_whole, Token.trimList_flatMap_text]
  rw [read_flatMap_text (Token.ofSeconds_ne_nil s) htrim, total_whole hns (by rwa [hsum]), hsum]

theorem isAllBlank_text_whole (s : Nat) :
    Text.isAllBlank (text ⟨s * nanosecondsPerSecond⟩) = false := by
  rw [Text.isAllBlank, toList_text_whole]
  rcases htext : (Token.ofSeconds s).flatMap Token.text with _ | ⟨c, cs⟩
  · exact absurd htext (Token.flatMap_text_ne_nil (Token.ofSeconds_ne_nil s))
  · have hc : c ∈ (Token.ofSeconds s).flatMap Token.text := by rw [htext]; exact List.mem_cons_self
    obtain ⟨t, -, hc⟩ := List.mem_flatMap.1 hc
    rw [List.all_cons, Token.isBlank_of_mem_text hc, Bool.false_and]

/-- Only `0` and tokens are durations. The patterns split tokens in the one way there is and agree
with the reader; whole amounts of hours, minutes and seconds are added exactly, and whole seconds
are read back from their text. -/
theorem grammar (D : DigitClass) :
    (∀ text, readByPatterns D text = read text)
      ∧ (∀ text, Text.trimList text.toList = ['0'] → read text = .ok ⟨0⟩)
      ∧ (∀ text, Text.trimList text.toList ≠ ['0'] →
          (¬ ∃ ts : List (Token .decimal),
            ts ≠ [] ∧ Text.trimList text.toList = ts.flatMap Token.text) →
          read text = .error .malformed)
      ∧ (∀ text (ts : List (Token .decimal)), ts ≠ [] →
          Text.trimList text.toList = ts.flatMap Token.text →
          [] ∈ (textPattern D).rests (Text.trimList text.toList)
            ∧ (∀ us : List (Token D), Text.trimList text.toList = us.flatMap Token.text →
                us = ts.map (Token.widen D))
            ∧ parts D (Text.trimList text.toList)
                = ts.map (fun t => (t.amount.text, t.word.letters))
            ∧ read text = total ts
            ∧ ∀ ns, ts.mapM Token.wholeSeconds? = some ns → ns.sum < 2 ^ 53 →
                read text = .ok ⟨ns.sum * nanosecondsPerSecond⟩)
      ∧ ∀ s < 2 ^ 53, read (text ⟨s * nanosecondsPerSecond⟩) = .ok ⟨s * nanosecondsPerSecond⟩ := by
  refine ⟨readByPatterns_eq_read D, ?zero, fun _ => read_eq_malformed, ?tokens,
    fun _ => read_text_whole⟩
  case zero =>
    intro text hzero
    rw [read, if_pos hzero]
  case tokens =>
    intro text ts hne hts
    have hread : read text = total ts := read_flatMap_text hne hts
    have hwiden := Token.flatMap_widen D ts
    refine ⟨?_, ?_, ?_, hread, fun ns hns hbound => ?_⟩
    · rw [nil_mem_rests_textPattern]
      exact ⟨ts.map (Token.widen D), by simpa using hne, hts.trans hwiden.symm⟩
    · intro us hus
      exact Token.eq_of_flatMap_text_eq (hus.symm.trans (hts.trans hwiden.symm))
    · rw [hts, parts_decimal]
    · rw [hread, total_whole hns hbound]

theorem grammar_ninetySeconds :
    read "0 " = .ok ⟨0⟩
      ∧ read "10 minutes" = .error .malformed
      ∧ read " 1m30s" = .ok ⟨90 * nanosecondsPerSecond⟩
      ∧ read (text ⟨90 * nanosecondsPerSecond⟩) = .ok ⟨90 * nanosecondsPerSecond⟩ := by
  obtain ⟨-, hzero, hother, htokens, hwritten⟩ := grammar .decimal
  refine ⟨hzero "0 " (by decide), hother "10 minutes" (by decide) ?_, ?_, hwritten 90 (by decide)⟩
  · rintro ⟨ts, -, hts⟩
    have hread := readTerms?_flatMap_text (Token.length_le_length_flatMap_text ts)
    rw [← hts] at hread
    cases hread
  · have hts := htokens " 1m30s" [Token.ofNat 1 .minute, Token.ofNat 30 .second] (by decide)
      (by decide)
    exact hts.2.2.2.2 [60, 30] (by decide) (by decide)

end BackupProfiles.Duration
