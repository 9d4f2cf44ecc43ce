import BackupProfiles.Duration
import BackupProfiles.Proofs.Text.Digits
import Mathlib.Data.List.TakeWhile

/-!
# The tokens of a duration

A token is an amount, digits with perhaps a point and more digits, and the word of a unit. What
counts as a digit is a parameter, since patterns accept more digits than numbers are read from. A
text splits into tokens in one way at most (`Token.eq_of_flatMap_text_eq`): an amount ends at the
first character that is no digit, and a word that is the front of a longer one is never followed by
the rest of it, because the next token starts with a digit.

Reading terms finds the tokens over the decimal digits (`readTerms?_flatMap_text`) and nothing else
(`exists_tokens_of_readTerms?`).
-/

namespace BackupProfiles.Duration

/-- What counts as a digit. Of the ASCII characters these are the decimal digits. -/
structure DigitClass where
  contains : Char → Bool
  ascii : ∀ c : Char, c.toNat < 128 → contains c = c.isDigit
  micro : contains 'µ' = false

namespace DigitClass

def decimal : DigitClass := ⟨Char.isDigit, fun _ _ => rfl, by decide⟩

instance : Inhabited DigitClass := ⟨decimal⟩

@[simp]
theorem contains_decimal : decimal.contains = Char.isDigit := rfl

variable (D : DigitClass) {c : Char}

theorem contains_of_isDigit (h : c.isDigit) : D.contains c := by
  have hascii : c.toNat < 128 := by
    have := Text.toNat_of_isDigit h
    omega
  rw [D.ascii c hascii, h]

/-- No digit is one of the other ASCII characters. -/
theorem ne_of_contains {d : Char} (h : D.contains c) (hascii : d.toNat < 128)
    (hd : d.isDigit = false) : c ≠ d := by
  rintro rfl
  rw [D.ascii c hascii, hd] at h
  exact Bool.false_ne_true h

end DigitClass

/-- The units as they are written. -/
inductive UnitWord where
  | nano
  | micro
  | microSign
  | milli
  | second
  | minute
  | hour
  deriving DecidableEq, Repr

namespace UnitWord

def letters : UnitWord → List Char
  | nano => ['n', 's']
  | micro => ['u', 's']
  | microSign => ['µ', 's']
  | milli => ['m', 's']
  | second => ['s']
  | minute => ['m']
  | hour => ['h']

def unit : UnitWord → TimeUnit
  | nano => .nanosecond
  | micro => .microsecond
  | microSign => .microsecond
  | milli => .millisecond
  | second => .second
  | minute => .minute
  | hour => .hour

variable {D : DigitClass} {w w' : UnitWord} {cs rest rest' : List Char}

theorem letters_ne_nil (w : UnitWord) : w.letters ≠ [] := by cases w <;> simp [letters]

theorem not_contains_of_mem_letters {c : Char} (h : c ∈ w.letters) : D.contains c = false := by
  have hmicro := D.micro
  have hascii := D.ascii
  cases w <;> simp only [letters, List.mem_cons, List.not_mem_nil, or_false] at h <;>
    rcases h with rfl | rfl <;> first | exact hmicro | exact hascii _ (by decide)

/-- `m` is the only word that another one starts with. -/
theorem letters_append_inj (hs : rest.head? ≠ some 's') (hs' : rest'.head? ≠ some 's')
    (h : w.letters ++ rest = w'.letters ++ rest') : w = w' ∧ rest = rest' := by
  cases w <;> cases w' <;> simp_all [letters]
  -- left is `ms` against `m` with an `s` after it
  rw [← h] at hs'
  exact hs' rfl

theorem readUnit?_letters (w : UnitWord) (hs : rest.head? ≠ some 's') :
    readUnit? (w.letters ++ rest) = some (w.unit, rest) := by
  cases w <;> try rfl
  -- only after `m` does the reader look at what follows
  rcases rest with _ | ⟨c, cs⟩
  · rfl
  · have hc : c ≠ 's' := by simpa using hs
    simp [letters, unit, readUnit?, hc]

theorem exists_letters_of_readUnit? {u : TimeUnit} (h : readUnit? cs = some (u, rest)) :
    ∃ w : UnitWord, cs = w.letters ++ rest ∧ w.unit = u := by
  unfold readUnit? at h
  split at h <;> simp only [Option.some.injEq, Prod.mk.injEq, reduceCtorEq] at h
  case h_1 => obtain ⟨rfl, rfl⟩ := h; exact ⟨nano, rfl, rfl⟩
  case h_2 => obtain ⟨rfl, rfl⟩ := h; exact ⟨micro, rfl, rfl⟩
  case h_3 => obtain ⟨rfl, rfl⟩ := h; exact ⟨microSign, rfl, rfl⟩
  case h_4 => obtain ⟨rfl, rfl⟩ := h; exact ⟨milli, rfl, rfl⟩
  case h_5 => obtain ⟨rfl, rfl⟩ := h; exact ⟨second, rfl, rfl⟩
  case h_6 => obtain ⟨rfl, rfl⟩ := h; exact ⟨minute, rfl, rfl⟩
  case h_7 => obtain ⟨rfl, rfl⟩ := h; exact ⟨hour, rfl, rfl⟩

end UnitWord

/-- Digits, with perhaps a point and more digits. -/
@[ext]
structure Amount (D : DigitClass) where
  whole : List Char
  places : List Char
  whole_ne_nil : whole ≠ []
  whole_digits : ∀ c ∈ whole, D.contains c
  places_digits : ∀ c ∈ places, D.contains c

namespace Amount

variable {D : DigitClass} {a a' : Amount D} {rest rest' : List Char}

/-- The point with the digits after it, when there are any. -/
def fraction (a : Amount D) : List Char := if a.places = [] then [] else '.' :: a.places

def text (a : Amount D) : List Char := a.whole ++ a.fraction

/-- The number that decimal digits stand for. -/
def value (a : Amount D) : Binary64 :=
  Binary64.ofDecimal false (Text.valueIn 10 (a.whole ++ a.places)) (-a.places.length)

/-- Neither a digit nor a point comes first. -/
def Ends (D : DigitClass) (rest : List Char) : Prop :=
  ∀ c ∈ rest.head?, D.contains c = false ∧ c ≠ '.'

theorem span_digits {ds : List Char} (hds : ∀ c ∈ ds, D.contains c)
    (hrest : ∀ c ∈ rest.head?, D.contains c = false) :
    (ds ++ rest).takeWhile D.contains = ds ∧ (ds ++ rest).dropWhile D.contains = rest := by
  rw [List.takeWhile_append_of_pos hds, List.dropWhile_append_of_pos hds]
  rcases rest with _ | ⟨c, cs⟩
  · simp
  · simp [hrest c rfl]

theorem fraction_cases (a : Amount D) :
    a.places = [] ∧ a.fraction = [] ∨ a.places ≠ [] ∧ a.fraction = '.' :: a.places := by
  by_cases h : a.places = []
  · exact .inl ⟨h, if_pos h⟩
  · exact .inr ⟨h, if_neg h⟩

theorem not_contains_head_fraction (a : Amount D) (hends : Ends D rest) :
    ∀ c ∈ (a.fraction ++ rest).head?, D.contains c = false := by
  intro c hc
  rcases a.fraction_cases with ⟨-, hf⟩ | ⟨-, hf⟩ <;> rw [hf] at hc
  · exact (hends c hc).1
  · obtain rfl : '.' = c := Option.some.inj hc
    exact D.ascii '.' (by decide)

theorem span_whole (a : Amount D) (hends : Ends D rest) :
    (a.text ++ rest).takeWhile D.contains = a.whole
      ∧ (a.text ++ rest).dropWhile D.contains = a.fraction ++ rest := by
  rw [text, List.append_assoc]
  exact span_digits a.whole_digits (a.not_contains_head_fraction hends)

theorem span_places (a : Amount D) (hends : Ends D rest) :
    (a.places ++ rest).takeWhile D.contains = a.places
      ∧ (a.places ++ rest).dropWhile D.contains = rest :=
  span_digits a.places_digits fun c hc => (hends c hc).1

theorem text_append_inj (hends : Ends D rest) (hnext : Ends D rest')
    (h : a.text ++ rest = a'.text ++ rest') : a = a' ∧ rest = rest' := by
  have hwhole : a.whole = a'.whole := by
    rw [← (a.span_whole hends).1, h, (a'.span_whole hnext).1]
  have hfraction : a.fraction ++ rest = a'.fraction ++ rest' := by
    rw [← (a.span_whole hends).2, h, (a'.span_whole hnext).2]
  rcases a.fraction_cases with ⟨hp, hf⟩ | ⟨-, hf⟩ <;>
    rcases a'.fraction_cases with ⟨hp', hf'⟩ | ⟨-, hf'⟩ <;> rw [hf, hf'] at hfraction
  · exact ⟨Amount.ext hwhole (hp.trans hp'.symm), hfraction⟩
  · exact absurd rfl (hends '.' (by rw [show rest = _ from hfraction]; rfl)).2
  · exact absurd rfl (hnext '.' (by rw [← show _ = rest' from hfraction]; rfl)).2
  · have hplaces : a.places ++ rest = a'.places ++ rest' := List.tail_eq_of_cons_eq hfraction
    refine ⟨Amount.ext hwhole ?_, ?_⟩
    · rw [← (a.span_places hends).1, hplaces, (a'.span_places hnext).1]
    · rw [← (a.span_places hends).2, hplaces, (a'.span_places hnext).2]

theorem isDigit_eq : isDigit = DigitClass.decimal.contains := by
  funext c
  rw [isDigit, Text.isDigitIn_ten]
  rfl

theorem readAmount?_text (a : Amount .decimal) (hends : Ends .decimal rest) :
    readAmount? (a.text ++ rest) = some (a.value, rest) := by
  have hwhole := a.span_whole hends
  have hplaces := a.span_places hends
  simp only [readAmount?, isDigit_eq, hwhole, List.isEmpty_iff, a.whole_ne_nil, if_false]
  rcases a.fraction_cases with ⟨hp, hf⟩ | ⟨hp, hf⟩ <;> rw [hf]
  · rw [value, hp, List.append_nil]
    rcases rest with _ | ⟨c, cs⟩
    · rfl
    · have hc : c ≠ '.' := (hends c rfl).2
      simp [hc]
  · simp only [List.cons_append, hplaces, hp, if_false, value]

theorem exists_amount_of_readAmount? {cs : List Char} {x : Binary64}
    (h : readAmount? cs = some (x, rest)) :
    ∃ a : Amount .decimal, cs = a.text ++ rest ∧ a.value = x := by
  have hdigits : ∀ (ds : List Char), ∀ c ∈ ds.takeWhile DigitClass.decimal.contains,
      DigitClass.decimal.contains c := fun ds c hc => List.mem_takeWhile_imp hc
  have hcs := List.takeWhile_append_dropWhile (p := DigitClass.decimal.contains) (l := cs)
  simp only [readAmount?, isDigit_eq, List.isEmpty_iff] at h
  split at h
  · cases h
  next hwhole =>
    split at h
    next more hrest =>
      split at h
      · cases h
      next hplaces =>
        simp only [Option.some.injEq, Prod.mk.injEq] at h
        refine ⟨⟨_, _, hwhole, hdigits cs, hdigits more⟩, ?_, h.1⟩
        rw [text, fraction, if_neg hplaces, ← h.2, List.append_assoc, List.cons_append,
          List.takeWhile_append_dropWhile, ← hrest, hcs]
    next =>
      simp only [Option.some.injEq, Prod.mk.injEq] at h
      refine ⟨⟨_, [], hwhole, hdigits cs, by simp⟩, ?_, ?_⟩
      · rw [text, fraction, if_pos rfl, List.append_nil, ← h.2, hcs]
      · rw [value, List.append_nil]
        exact h.1

end Amount

@[ext]
structure Token (D : DigitClass) where
  amount : Amount D
  word : UnitWord

namespace Token

variable {D : DigitClass} {t t' : Token D} {ts ts' : List (Token D)} {cs rest rest' : List Char}

def text (t : Token D) : List Char := t.amount.text ++ t.word.letters

def term (t : Token D) : Term := ⟨t.amount.value, t.word.unit⟩

theorem text_ne_nil (t : Token D) : t.text ≠ [] := fun h =>
  t.word.letters_ne_nil (List.append_eq_nil_iff.1 h).2

/-- A word ends the amount in front of it. -/
theorem ends_letters (w : UnitWord) (rest : List Char) : Amount.Ends D (w.letters ++ rest) := by
  rcases hw : w.letters with _ | ⟨c, cs⟩
  · exact absurd hw w.letters_ne_nil
  · rintro _ ⟨⟩
    have hc : c ∈ w.letters := by rw [hw]; exact List.mem_cons_self
    refine ⟨UnitWord.not_contains_of_mem_letters hc, ?_⟩
    rintro rfl
    cases w <;> simp [UnitWord.letters] at hc

theorem text_append_inj (hs : rest.head? ≠ some 's') (hs' : rest'.head? ≠ some 's')
    (h : t.text ++ rest = t'.text ++ rest') : t = t' ∧ rest = rest' := by
  rw [text, text, List.append_assoc, List.append_assoc] at h
  obtain ⟨hamount, h⟩ := Amount.text_append_inj (ends_letters _ _) (ends_letters _ _) h
  obtain ⟨hword, h⟩ := UnitWord.letters_append_inj hs hs' h
  exact ⟨Token.ext hamount hword, h⟩

/-- What follows a token in a text starts with a digit. -/
theorem head?_flatMap_text (ts : List (Token D)) : (ts.flatMap text).head? ≠ some 's' := by
  rcases ts with _ | ⟨t, ts⟩
  · simp
  · rcases hw : t.amount.whole with _ | ⟨c, cs⟩
    · exact absurd hw t.amount.whole_ne_nil
    · have hc : D.contains c := t.amount.whole_digits c (by rw [hw]; exact List.mem_cons_self)
      have hne : c ≠ 's' := D.ne_of_contains hc (by decide) (by decide)
      simpa [text, Amount.text, hw] using hne

/-- A text splits into tokens in one way at most. -/
theorem eq_of_flatMap_text_eq (h : ts.flatMap text = ts'.flatMap text) : ts = ts' := by
  induction ts generalizing ts' with
  | nil =>
    rcases ts' with _ | ⟨t', ts'⟩
    · rfl
    · simp [t'.text_ne_nil] at h
  | cons t ts ih =>
    rcases ts' with _ | ⟨t', ts'⟩
    · simp [t.text_ne_nil] at h
    · rw [List.flatMap_cons, List.flatMap_cons] at h
      obtain ⟨rfl, htail⟩ := text_append_inj (head?_flatMap_text ts) (head?_flatMap_text ts') h
      rw [ih htail]

theorem flatMap_text_ne_nil (h : ts ≠ []) : ts.flatMap text ≠ [] := by
  rcases ts with _ | ⟨t, ts⟩
  · exact absurd rfl h
  · simp [t.text_ne_nil]

theorem length_le_length_flatMap_text (ts : List (Token D)) :
    ts.length ≤ (ts.flatMap text).length := by
  induction ts with
  | nil => simp
  | cons t ts ih =>
    have ht : 0 < t.text.length := List.length_pos_iff.2 t.text_ne_nil
    rw [List.flatMap_cons, List.length_append, List.length_cons]
    omega

end Token

section Reading

variable {ts : List (Token .decimal)} {cs rest : List Char}

theorem readTerm?_text (t : Token .decimal) (hs : rest.head? ≠ some 's') :
    readTerm? (t.text ++ rest) = some (t.term, rest) := by
  rw [readTerm?, Token.text, List.append_assoc, Amount.readAmount?_text _ (Token.ends_letters _ _)]
  simp only [Option.bind_some, UnitWord.readUnit?_letters _ hs, Option.map_some, Token.term]

theorem exists_token_of_readTerm? {x : Term} (h : readTerm? cs = some (x, rest)) :
    ∃ t : Token .decimal, cs = t.text ++ rest ∧ t.term = x := by
  obtain ⟨⟨y, mid⟩, hamount, h⟩ := Option.bind_eq_some_iff.1 h
  obtain ⟨⟨u, _⟩, hunit, h⟩ := Option.map_eq_some_iff.1 h
  obtain ⟨a, rfl, rfl⟩ := Amount.exists_amount_of_readAmount? hamount
  obtain ⟨w, rfl, rfl⟩ := UnitWord.exists_letters_of_readUnit? hunit
  obtain ⟨rfl, rfl⟩ := Prod.mk.inj h
  exact ⟨⟨a, w⟩, by rw [Token.text, List.append_assoc], rfl⟩

theorem readTerms?_flatMap_text {n : Nat} (hn : ts.length ≤ n) :
    readTerms? n (ts.flatMap Token.text) = some (ts.map Token.term) := by
  induction ts generalizing n with
  | nil => cases n <;> rfl
  | cons t ts ih =>
    rcases n with _ | n
    · cases hn
    · have hterm := readTerm?_text t (Token.head?_flatMap_text ts)
      rw [List.flatMap_cons, readTerms?, hterm]
      · simp only [Option.bind_some, ih (Nat.le_of_succ_le_succ hn), Option.map_some, List.map_cons]
      · simp [t.text_ne_nil]

theorem exists_tokens_of_readTerms? {n : Nat} {xs : List Term} (h : readTerms? n cs = some xs) :
    ∃ ts : List (Token .decimal), cs = ts.flatMap Token.text ∧ ts.map Token.term = xs := by
  fun_induction readTerms? n cs generalizing xs with
  | case1 => exact ⟨[], rfl, Option.some.inj h⟩
  | case2 => cases h
  | case3 n cs _ ih =>
    obtain ⟨⟨x, rest⟩, hterm, h⟩ := Option.bind_eq_some_iff.1 h
    obtain ⟨xs, hrest, rfl⟩ := Option.map_eq_some_iff.1 h
    obtain ⟨t, rfl, rfl⟩ := exists_token_of_readTerm? hterm
    obtain ⟨ts, rfl, rfl⟩ := ih rest hrest
    exact ⟨t :: ts, rfl, rfl⟩

/-- The terms of tokens, added in order. -/
def total (ts : List (Token .decimal)) : Except ReadFault Duration :=
  let seconds := (ts.map Token.term).foldl (fun sum t => sum.add t.seconds) (Binary64.zero false)
  match ofSeconds? seconds with
  | some d => .ok d
  | none => .error .outOfRange

theorem flatMap_text_ne_zero (ts : List (Token .decimal)) : ts.flatMap Token.text ≠ ['0'] := by
  intro h
  have hlength : ts.length ≤ 1 := by
    have := Token.length_le_length_flatMap_text ts
    rwa [h] at this
  have hread := readTerms?_flatMap_text hlength
  rw [h] at hread
  cases hread

theorem read_flatMap_text {text : String} (hne : ts ≠ [])
    (htext : Text.trimList text.toList = ts.flatMap Token.text) : read text = total ts := by
  rw [read, htext, if_neg (flatMap_text_ne_zero ts),
    readTerms?_flatMap_text (Token.length_le_length_flatMap_text ts)]
  rcases ts with _ | ⟨t, ts⟩
  · exact absurd rfl hne
  · rfl

theorem read_eq_malformed {text : String} (hzero : Text.trimList text.toList ≠ ['0'])
    (hnone : ¬ ∃ ts : List (Token .decimal),
      ts ≠ [] ∧ Text.trimList text.toList = ts.flatMap Token.text) :
    read text = .error .malformed := by
  rw [read, if_neg hzero]
  split
  · rfl
  · rfl
  next xs hxs hread =>
    obtain ⟨ts, hts, rfl⟩ := exists_tokens_of_readTerms? hread
    refine absurd ⟨ts, ?_, hts⟩ hnone
    rintro rfl
    exact hxs rfl

end Reading

end BackupProfiles.Duration
