import BackupProfiles.Numeric.NumberText
import BackupProfiles.Proofs.Duration.Token
import Mathlib.Data.Set.List

/-!
# Durations by patterns

Durations can also be read with two patterns: one that the whole text has to match, and one that is
searched for again and again and yields the amount and the unit of every term (`readByPatterns`).
Repetitions prefer to go on and alternatives are tried in order, so a pattern leaves a list of
rests, the preferred one first (`Pattern.rests`). That a text matches is a matter of membership in
that list; what a search yields is a matter of its head.

Both patterns split a text into its tokens (`nil_mem_rests_textPattern`, `parts_flatMap_text`).
Patterns accept digits that are not decimal, but no amount with one of them is a number, so the
two ways to read durations agree (`readByPatterns_eq_read`).
-/

namespace BackupProfiles.Duration

inductive Pattern where
  | char (accepts : Char → Bool)
  | seq (p q : Pattern)
  | alt (p q : Pattern)
  | optional (p : Pattern)
  | plus (p : Pattern)

namespace Pattern

/-- What repetitions of a step leave, one after the other as long as there is something to take; the
number bounds them. -/
def repeated (step : List Char → List (List Char)) : Nat → List Char → List (List Char)
  | 0, _ => []
  | n + 1, cs => (step cs).flatMap fun rest => repeated step n rest ++ [rest]

/-- What a pattern can leave of a text when it matches at the front, the preferred match first. -/
def rests : Pattern → List Char → List (List Char)
  | char _, [] => []
  | char accepts, c :: cs => if accepts c then [cs] else []
  | seq p q, cs => (p.rests cs).flatMap q.rests
  | alt p q, cs => p.rests cs ++ q.rests cs
  | optional p, cs => p.rests cs ++ [cs]
  | plus p, cs => repeated p.rests cs.length cs

/-- The front of a text with a rest. -/
def upTo (cs rest : List Char) : List Char := cs.take (cs.length - rest.length)

/-- What two patterns match one after the other in the preferred match of both, and the rest. -/
def groups? (p q : Pattern) (cs : List Char) : Option ((List Char × List Char) × List Char) :=
  ((p.rests cs).flatMap fun mid =>
    (q.rests mid).map fun rest => ((upTo cs mid, upTo mid rest), rest)).head?

/-- All matches of two patterns one after the other, from left to right. Between matches, characters
are skipped. The number bounds both. -/
def search (p q : Pattern) : Nat → List Char → List (List Char × List Char)
  | 0, _ => []
  | _, [] => []
  | n + 1, c :: cs =>
    match p.groups? q (c :: cs) with
    | some (groups, rest) => groups :: search p q n rest
    | none => search p q n cs

end Pattern

section Patterns

open Pattern

def literal (c : Char) : Pattern := char (· == c)

def digits (D : DigitClass) : Pattern := plus (char D.contains)

def amountPattern (D : DigitClass) : Pattern :=
  seq (digits D) (optional (seq (literal '.') (digits D)))

def unitPattern : Pattern :=
  alt (seq (literal 'n') (literal 's')) <| alt (seq (literal 'u') (literal 's')) <|
  alt (seq (literal 'µ') (literal 's')) <| alt (seq (literal 'm') (literal 's')) <|
  alt (literal 's') <| alt (literal 'm') (literal 'h')

/-- The pattern of a whole text. -/
def textPattern (D : DigitClass) : Pattern := plus (seq (amountPattern D) unitPattern)

/-- The amounts and units in a text. -/
def parts (D : DigitClass) (cs : List Char) : List (List Char × List Char) :=
  search (amountPattern D) unitPattern cs.length cs

end Patterns

def unitOf : List Char → TimeUnit
  | ['n', 's'] => .nanosecond
  | ['u', 's'] => .microsecond
  | ['µ', 's'] => .microsecond
  | ['m', 's'] => .millisecond
  | ['s'] => .second
  | ['m'] => .minute
  | _ => .hour

def readPart? (part : List Char × List Char) : Option Term :=
  (readDecimal? part.1).map fun amount => ⟨amount, unitOf part.2⟩

def readByPatterns (D : DigitClass) (text : String) : Except ReadFault Duration :=
  let cs := Text.trimList text.toList
  if cs = ['0'] then .ok ⟨0⟩
  else if [] ∉ (textPattern D).rests cs then .error .malformed
  else match (parts D cs).mapM readPart? with
    | none => .error .malformed
    | some terms =>
      match ofSeconds? (terms.foldl (fun sum t => sum.add t.seconds) (Binary64.zero false)) with
      | some d => .ok d
      | none => .error .outOfRange

/-! ## What matches -/

variable {D : DigitClass} {cs rest : List Char}

namespace Pattern

/-- Repetitions of a step that takes something match as often as there is something to take. -/
theorem mem_repeated_iff {step : List Char → List (List Char)} {P : List Char → Prop} {n : Nat}
    (hstep : ∀ cs rest, rest ∈ step cs ↔ ∃ front, P front ∧ cs = front ++ rest)
    (hne : ∀ front, P front → front ≠ []) (hn : cs.length ≤ n) :
    rest ∈ repeated step n cs ↔
      ∃ fronts : List (List Char), fronts ≠ [] ∧ (∀ front ∈ fronts, P front)
        ∧ cs = fronts.flatten ++ rest := by
  -- on the bound: a step takes at least one character, so the bound outlasts the text
  induction n generalizing cs with
  | zero =>
    refine ⟨fun h => absurd h List.not_mem_nil, ?_⟩
    rintro ⟨_ | ⟨front, fronts⟩, hfronts, hall, rfl⟩
    · exact absurd rfl hfronts
    · have hfront := hne front (hall front List.mem_cons_self)
      have := List.length_pos_iff.2 hfront
      simp only [List.flatten_cons, List.length_append] at hn
      omega
  | succ n ih =>
    have hlt : ∀ {front mid}, P front → cs = front ++ mid → mid.length ≤ n := by
      rintro front mid hfront rfl
      have := List.length_pos_iff.2 (hne front hfront)
      rw [List.length_append] at hn
      omega
    simp only [repeated, List.mem_flatMap, List.mem_append, List.mem_singleton, hstep]
    constructor
    · rintro ⟨mid, ⟨front, hfront, hcs⟩, hrest | rfl⟩
      · obtain ⟨fronts, -, hall, rfl⟩ := (ih (hlt hfront hcs)).1 hrest
        exact ⟨front :: fronts, List.cons_ne_nil _ _, List.forall_mem_cons.2 ⟨hfront, hall⟩,
          by rw [hcs, List.flatten_cons, List.append_assoc]⟩
      · exact ⟨[front], List.cons_ne_nil _ _, List.forall_mem_singleton.2 hfront,
          by rw [hcs, List.flatten_singleton]⟩
    · rintro ⟨_ | ⟨front, fronts⟩, hfronts, hall, hcs⟩
      · exact absurd rfl hfronts
      · obtain ⟨hfront, hall⟩ := List.forall_mem_cons.1 hall
        rw [List.flatten_cons, List.append_assoc] at hcs
        refine ⟨fronts.flatten ++ rest, ⟨front, hfront, hcs⟩, ?_⟩
        by_cases hmore : fronts = []
        · exact .inr (by rw [hmore]; rfl)
        · exact .inl ((ih (hlt hfront hcs)).2 ⟨fronts, hmore, hall, rfl⟩)

theorem mem_rests_char {accepts : Char → Bool} :
    rest ∈ (char accepts).rests cs ↔ ∃ c, accepts c ∧ cs = c :: rest := by
  rcases cs with _ | ⟨c, cs⟩
  · simp [rests]
  · rw [rests, List.mem_ite_nil_right, List.mem_singleton]
    constructor
    · rintro ⟨hc, rfl⟩
      exact ⟨c, hc, rfl⟩
    · rintro ⟨_, hc, ⟨⟩⟩
      exact ⟨hc, rfl⟩

end Pattern

open Pattern

theorem mem_rests_literal {c : Char} : rest ∈ (literal c).rests cs ↔ cs = c :: rest := by
  simp [literal, mem_rests_char]

theorem mem_rests_digits :
    rest ∈ (digits D).rests cs ↔ ∃ ds, ds ≠ [] ∧ (∀ c ∈ ds, D.contains c) ∧ cs = ds ++ rest := by
  have hstep : ∀ cs rest, rest ∈ (char D.contains).rests cs ↔
      ∃ front, (∃ c, D.contains c ∧ front = [c]) ∧ cs = front ++ rest := fun cs rest => by
    rw [mem_rests_char]
    constructor
    · rintro ⟨c, hc, rfl⟩
      exact ⟨[c], ⟨c, hc, rfl⟩, rfl⟩
    · rintro ⟨_, ⟨c, hc, rfl⟩, rfl⟩
      exact ⟨c, hc, rfl⟩
  have hne : ∀ front : List Char, (∃ c, D.contains c ∧ front = [c]) → front ≠ [] := by
    rintro _ ⟨c, -, rfl⟩
    exact List.cons_ne_nil c []
  rw [digits, rests, mem_repeated_iff hstep hne le_rfl]
  constructor
  · rintro ⟨fronts, hfronts, hall, hcs⟩
    refine ⟨fronts.flatten, ?_, ?_, hcs⟩
    · rcases fronts with _ | ⟨front, fronts⟩
      · exact absurd rfl hfronts
      · obtain ⟨c, -, rfl⟩ := hall front List.mem_cons_self
        exact List.cons_ne_nil c _
    · intro c hc
      obtain ⟨front, hfront, hc⟩ := List.mem_flatten.1 hc
      obtain ⟨d, hd, rfl⟩ := hall front hfront
      rwa [List.mem_singleton.1 hc]
  · rintro ⟨ds, hds, hall, hcs⟩
    refine ⟨ds.map ([·]), by simpa using hds, ?_, ?_⟩
    · intro front hfront
      obtain ⟨c, hc, rfl⟩ := List.mem_map.1 hfront
      exact ⟨c, hall c hc, rfl⟩
    · rw [hcs, ← List.flatMap_def, List.flatMap_singleton']

theorem mem_rests_amountPattern :
    rest ∈ (amountPattern D).rests cs ↔ ∃ a : Amount D, cs = a.text ++ rest := by
  simp only [amountPattern, rests, List.mem_flatMap, List.mem_append, List.mem_singleton,
    mem_rests_digits, mem_rests_literal]
  constructor
  · rintro ⟨_, ⟨whole, hne, hwhole, rfl⟩, ⟨_, rfl, places, hplaces, hall, rfl⟩ | rfl⟩
    · refine ⟨⟨whole, places, hne, hwhole, hall⟩, ?_⟩
      rw [Amount.text, Amount.fraction, if_neg hplaces, List.append_assoc, List.cons_append]
    · refine ⟨⟨whole, [], hne, hwhole, by simp⟩, ?_⟩
      rw [Amount.text, Amount.fraction, if_pos rfl, List.append_nil]
  · rintro ⟨a, rfl⟩
    refine ⟨a.fraction ++ rest, ⟨a.whole, a.whole_ne_nil, a.whole_digits, ?_⟩, ?_⟩
    · rw [Amount.text, List.append_assoc]
    · rcases a.fraction_cases with ⟨-, hf⟩ | ⟨hp, hf⟩ <;> rw [hf]
      · exact .inr rfl
      · exact .inl ⟨_, rfl, a.places, hp, a.places_digits, rfl⟩

theorem mem_rests_unitPattern :
    rest ∈ unitPattern.rests cs ↔ ∃ w : UnitWord, cs = w.letters ++ rest := by
  simp only [unitPattern, rests, List.mem_flatMap, List.mem_append, mem_rests_literal,
    exists_eq_right]
  constructor
  · rintro (⟨_, rfl, rfl⟩ | ⟨_, rfl, rfl⟩ | ⟨_, rfl, rfl⟩ | ⟨_, rfl, rfl⟩ | rfl | rfl | rfl)
    exacts [⟨.nano, rfl⟩, ⟨.micro, rfl⟩, ⟨.microSign, rfl⟩, ⟨.milli, rfl⟩, ⟨.second, rfl⟩,
      ⟨.minute, rfl⟩, ⟨.hour, rfl⟩]
  · rintro ⟨w, rfl⟩
    cases w <;> simp [UnitWord.letters]

theorem mem_rests_token :
    rest ∈ (seq (amountPattern D) unitPattern).rests cs ↔ ∃ t : Token D, cs = t.text ++ rest := by
  simp only [rests, List.mem_flatMap, mem_rests_amountPattern, mem_rests_unitPattern]
  constructor
  · rintro ⟨_, ⟨a, rfl⟩, w, rfl⟩
    exact ⟨⟨a, w⟩, by rw [Token.text, List.append_assoc]⟩
  · rintro ⟨t, rfl⟩
    exact ⟨t.word.letters ++ rest, ⟨t.amount, by rw [Token.text, List.append_assoc]⟩, t.word, rfl⟩

/-- A text matches when it is one token after the other, and at least one. -/
theorem nil_mem_rests_textPattern :
    [] ∈ (textPattern D).rests cs ↔
      ∃ ts : List (Token D), ts ≠ [] ∧ cs = ts.flatMap Token.text := by
  have hstep : ∀ cs rest, rest ∈ (seq (amountPattern D) unitPattern).rests cs ↔
      ∃ front, (∃ t : Token D, t.text = front) ∧ cs = front ++ rest := fun cs rest => by
    rw [mem_rests_token]
    exact ⟨fun ⟨t, h⟩ => ⟨_, ⟨t, rfl⟩, h⟩, fun ⟨_, ⟨t, ht⟩, h⟩ => ⟨t, by rw [ht, h]⟩⟩
  have hne : ∀ front : List Char, (∃ t : Token D, t.text = front) → front ≠ [] := by
    rintro _ ⟨t, rfl⟩
    exact t.text_ne_nil
  rw [textPattern, rests, mem_repeated_iff hstep hne le_rfl]
  constructor
  · rintro ⟨fronts, hfronts, hall, rfl⟩
    obtain ⟨ts, rfl⟩ : fronts ∈ Set.range (List.map (Token.text (D := D))) := by
      rw [Set.range_list_map]
      exact hall
    exact ⟨ts, by simpa using hfronts, by rw [List.append_nil, List.flatMap_def]⟩
  · rintro ⟨ts, hts, rfl⟩
    refine ⟨ts.map Token.text, by simpa using hts, ?_, by rw [List.append_nil, List.flatMap_def]⟩
    intro front hfront
    obtain ⟨t, -, rfl⟩ := List.mem_map.1 hfront
    exact ⟨t, rfl⟩

/-! ## What is preferred -/

namespace Pattern

theorem head?_flatMap {α β : Type} {l : List α} {f : α → List β} {x : α} {y : β}
    (hl : l.head? = some x) (hf : (f x).head? = some y) : (l.flatMap f).head? = some y := by
  rcases l with _ | ⟨_, l⟩
  · cases hl
  · obtain rfl := Option.some.inj hl
    rw [List.flatMap_cons, List.head?_append, hf, Option.some_or]

/-- A run of characters is taken as a whole, even if a part of it would do. -/
theorem head?_repeated_char {accepts : Char → Bool} {ds : List Char} {n : Nat} (hne : ds ≠ [])
    (hds : ∀ c ∈ ds, accepts c) (hrest : ∀ c ∈ rest.head?, accepts c = false)
    (hn : ds.length ≤ n) :
    (repeated (char accepts).rests n (ds ++ rest)).head? = some rest := by
  induction ds generalizing n with
  | nil => exact absurd rfl hne
  | cons d ds ih =>
    rcases n with _ | n
    · cases hn
    · obtain ⟨hd, hds⟩ := List.forall_mem_cons.1 hds
      refine head?_flatMap (x := ds ++ rest) (by simp [rests, hd]) ?_
      by_cases hmore : ds = []
      · -- what follows the run ends the repetition
        subst hmore
        have hnone : repeated (char accepts).rests n rest = [] := by
          rcases rest with _ | ⟨c, cs⟩ <;> rcases n with _ | n <;> try rfl
          simp [repeated, rests, hrest c rfl]
        rw [List.nil_append, hnone]
        rfl
      · rw [List.head?_append, ih hmore hds (Nat.le_of_succ_le_succ hn), Option.some_or]

end Pattern

theorem head?_rests_digits {ds : List Char} (hne : ds ≠ []) (hds : ∀ c ∈ ds, D.contains c)
    (hrest : ∀ c ∈ rest.head?, D.contains c = false) :
    ((digits D).rests (ds ++ rest)).head? = some rest :=
  head?_repeated_char hne hds hrest (by rw [List.length_append]; exact Nat.le_add_right _ _)

theorem head?_rests_amountPattern (a : Amount D) (hends : Amount.Ends D rest) :
    ((amountPattern D).rests (a.text ++ rest)).head? = some rest := by
  have hwhole : ((digits D).rests (a.text ++ rest)).head? = some (a.fraction ++ rest) := by
    rw [Amount.text, List.append_assoc]
    exact head?_rests_digits a.whole_ne_nil a.whole_digits (a.not_contains_head_fraction hends)
  refine head?_flatMap hwhole ?_
  rcases a.fraction_cases with ⟨-, hf⟩ | ⟨hp, hf⟩ <;> rw [hf]
  · have hpoint : (literal '.').rests rest = [] := by
      rcases rest with _ | ⟨c, cs⟩
      · rfl
      · simp [literal, rests, (hends c rfl).2]
    simp [rests, hpoint]
  · have hplaces : ((digits D).rests (a.places ++ rest)).head? = some rest :=
      head?_rests_digits hp a.places_digits fun c hc => (hends c hc).1
    have hseq : ((seq (literal '.') (digits D)).rests ('.' :: (a.places ++ rest))).head?
        = some rest := head?_flatMap (by simp [literal, rests]) hplaces
    rw [List.cons_append, rests, List.head?_append, hseq, Option.some_or]

theorem head?_rests_unitPattern (w : UnitWord) (hs : rest.head? ≠ some 's') :
    (unitPattern.rests (w.letters ++ rest)).head? = some rest := by
  rcases rest with _ | ⟨c, cs⟩
  · cases w <;> simp [UnitWord.letters, unitPattern, literal, rests]
  · have hc : c ≠ 's' := by simpa using hs
    cases w <;> simp [UnitWord.letters, unitPattern, literal, rests, hc]

theorem groups?_token (t : Token D) (hs : rest.head? ≠ some 's') :
    groups? (amountPattern D) unitPattern (t.text ++ rest)
      = some ((t.amount.text, t.word.letters), rest) := by
  have hamount : ((amountPattern D).rests (t.text ++ rest)).head?
      = some (t.word.letters ++ rest) := by
    rw [Token.text, List.append_assoc]
    exact head?_rests_amountPattern t.amount (Token.ends_letters _ _)
  have hupTo : ∀ front rest : List Char, upTo (front ++ rest) rest = front := fun front rest => by
    rw [upTo, List.length_append, Nat.add_sub_cancel, List.take_left]
  refine head?_flatMap hamount ?_
  rw [List.head?_map, head?_rests_unitPattern t.word hs, Option.map_some, hupTo, Token.text,
    List.append_assoc, hupTo]

theorem search_flatMap_text (ts : List (Token D)) {n : Nat} (hn : ts.length ≤ n) :
    search (amountPattern D) unitPattern n (ts.flatMap Token.text)
      = ts.map fun t => (t.amount.text, t.word.letters) := by
  induction ts generalizing n with
  | nil => cases n <;> rfl
  | cons t ts ih =>
    rcases n with _ | n
    · cases hn
    · have hgroups := groups?_token t (Token.head?_flatMap_text ts)
      rw [List.flatMap_cons, List.map_cons, ← ih (Nat.le_of_succ_le_succ hn)]
      rcases htext : t.text with _ | ⟨c, cs⟩
      · exact absurd htext t.text_ne_nil
      · rw [htext, List.cons_append] at hgroups
        rw [List.cons_append, search, hgroups]

/-- The search yields the tokens of the text, all of them. -/
theorem parts_flatMap_text (ts : List (Token D)) :
    parts D (ts.flatMap Token.text) = ts.map fun t => (t.amount.text, t.word.letters) :=
  search_flatMap_text ts (Token.length_le_length_flatMap_text ts)

/-! ## What is read -/

theorem DigitClass.decimal_or_exists {ds : List Char} (hds : ∀ c ∈ ds, D.contains c) :
    (∀ c ∈ ds, c.isDigit) ∨ ∃ front c back, ds = front ++ c :: back ∧ (∀ d ∈ front, d.isDigit)
      ∧ D.contains c ∧ c.isDigit = false := by
  induction ds with
  | nil => exact .inl (by simp)
  | cons d ds ih =>
    obtain ⟨hd, hds⟩ := List.forall_mem_cons.1 hds
    by_cases hdigit : d.isDigit
    · rcases ih hds with hall | ⟨front, c, back, rfl, hfront, hc⟩
      · exact .inl (List.forall_mem_cons.2 ⟨hdigit, hall⟩)
      · exact .inr ⟨d :: front, c, back, rfl, List.forall_mem_cons.2 ⟨hdigit, hfront⟩, hc⟩
    · exact .inr ⟨[], d, ds, rfl, by simp, hd, Bool.eq_false_iff.2 hdigit⟩

theorem readExponent?_of_contains {c : Char} (hc : D.contains c) :
    readExponent? (c :: cs) = none := by
  have he : c ≠ 'e' := D.ne_of_contains hc (by decide) (by decide)
  have hE : c ≠ 'E' := D.ne_of_contains hc (by decide) (by decide)
  simp [readExponent?, he, hE]

namespace Amount

theorem readDecimal?_text (a : Amount D) : readDecimal? a.text = readMagnitude? false a.text := by
  rcases hw : a.whole with _ | ⟨c, ds⟩
  · exact absurd hw a.whole_ne_nil
  · have hc : D.contains c := a.whole_digits c (by rw [hw]; exact List.mem_cons_self)
    have hminus : c ≠ '-' := D.ne_of_contains hc (by decide) (by decide)
    have hplus : c ≠ '+' := D.ne_of_contains hc (by decide) (by decide)
    simp [readDecimal?, text, hw, hminus, hplus]

theorem readMagnitude?_text (a : Amount .decimal) : readMagnitude? false a.text = some a.value := by
  have hends : Ends .decimal [] := by rintro _ ⟨⟩
  have hwhole := a.span_whole hends
  have hplaces := a.span_places hends
  simp only [List.append_nil, DigitClass.contains_decimal] at hwhole hplaces
  rw [readMagnitude?, Text.isDigitIn_ten, hwhole.1, hwhole.2]
  rcases a.fraction_cases with ⟨hp, hf⟩ | ⟨-, hf⟩
  · simp [hf, value, hp, a.whole_ne_nil, readExponent?]
  · simp [hf, value, hplaces, a.whole_ne_nil, readExponent?]

section Other

variable {front : List Char} {c : Char}

theorem span_decimal (hfront : ∀ d ∈ front, d.isDigit) (hc : c.isDigit = false)
    (back : List Char) :
    (front ++ c :: back).takeWhile Char.isDigit = front
      ∧ (front ++ c :: back).dropWhile Char.isDigit = c :: back :=
  span_digits (D := .decimal) hfront (by rintro _ ⟨⟩; exact hc)

/-- A number does not go on with a digit that is not decimal. -/
theorem readMagnitude?_of_contains (hfront : ∀ d ∈ front, d.isDigit) (hc : D.contains c)
    (hd : c.isDigit = false) (back : List Char) :
    readMagnitude? false (front ++ c :: back) = none := by
  obtain ⟨htake, hdrop⟩ := span_decimal hfront hd back
  have hpoint : c ≠ '.' := D.ne_of_contains hc (by decide) (by decide)
  rw [readMagnitude?, Text.isDigitIn_ten, htake, hdrop]
  simp [hpoint, readExponent?_of_contains hc]

theorem readMagnitude?_point_of_contains {whole : List Char} (hwhole : ∀ d ∈ whole, d.isDigit)
    (hfront : ∀ d ∈ front, d.isDigit) (hc : D.contains c) (hd : c.isDigit = false)
    (back : List Char) : readMagnitude? false (whole ++ '.' :: (front ++ c :: back)) = none := by
  have hpoint : ('.' : Char).isDigit = false := rfl
  obtain ⟨htake, hdrop⟩ := span_decimal hwhole hpoint (front ++ c :: back)
  obtain ⟨htake', hdrop'⟩ := span_decimal hfront hd back
  rw [readMagnitude?, Text.isDigitIn_ten, htake, hdrop]
  simp [htake', hdrop', readExponent?_of_contains hc]

end Other

/-- An amount that reads as a number has decimal digits only. -/
theorem exists_decimal (a : Amount D) {x : Binary64} (h : readMagnitude? false a.text = some x) :
    ∃ b : Amount .decimal, b.text = a.text := by
  rcases DigitClass.decimal_or_exists a.whole_digits with
    hwhole | ⟨front, c, back, hw, hfront, hc, hd⟩
  · rcases a.fraction_cases with ⟨-, hf⟩ | ⟨-, hf⟩
    · refine ⟨⟨a.whole, [], a.whole_ne_nil, hwhole, by simp⟩, ?_⟩
      rw [text, text, hf, fraction, if_pos rfl]
    · rcases DigitClass.decimal_or_exists a.places_digits with
        hplaces | ⟨front, c, back, hp, hfront, hc, hd⟩
      · exact ⟨⟨a.whole, a.places, a.whole_ne_nil, hwhole, hplaces⟩, rfl⟩
      · rw [text, hf, hp, readMagnitude?_point_of_contains hwhole hfront hc hd] at h
        cases h
  · rw [text, hw, List.append_assoc, List.cons_append,
      readMagnitude?_of_contains hfront hc hd] at h
    cases h

/-- The same amount for a class with more digits. -/
def widen (D : DigitClass) (a : Amount .decimal) : Amount D :=
  ⟨a.whole, a.places, a.whole_ne_nil, fun c hc => D.contains_of_isDigit (a.whole_digits c hc),
    fun c hc => D.contains_of_isDigit (a.places_digits c hc)⟩

end Amount

namespace Token

def widen (D : DigitClass) (t : Token .decimal) : Token D := ⟨t.amount.widen D, t.word⟩

theorem flatMap_widen (D : DigitClass) (ts : List (Token .decimal)) :
    (ts.map (widen D)).flatMap text = ts.flatMap text := by
  rw [List.flatMap_map]
  rfl

theorem unitOf_letters (w : UnitWord) : unitOf w.letters = w.unit := by cases w <;> rfl

theorem readPart?_decimal (t : Token .decimal) :
    readPart? (t.amount.text, t.word.letters) = some t.term := by
  rw [readPart?, Amount.readDecimal?_text, Amount.readMagnitude?_text, Option.map_some,
    unitOf_letters]
  rfl

theorem exists_decimal_of_readPart? (t : Token D) {x : Term}
    (h : readPart? (t.amount.text, t.word.letters) = some x) :
    ∃ u : Token .decimal, u.text = t.text := by
  obtain ⟨y, hy, -⟩ := Option.map_eq_some_iff.1 h
  rw [Amount.readDecimal?_text] at hy
  obtain ⟨b, hb⟩ := t.amount.exists_decimal hy
  exact ⟨⟨b, t.word⟩, by rw [text, text, hb]⟩

theorem mapM_readPart?_decimal (ts : List (Token .decimal)) :
    (ts.map fun t => (t.amount.text, t.word.letters)).mapM readPart? = some (ts.map term) := by
  induction ts with
  | nil => rfl
  | cons t ts ih =>
    rw [List.map_cons, List.mapM_cons, readPart?_decimal, ih]
    rfl

theorem exists_decimal_of_mapM_readPart? {ts : List (Token D)} {xs : List Term}
    (h : (ts.map fun t => (t.amount.text, t.word.letters)).mapM readPart? = some xs) :
    ∃ us : List (Token .decimal), us.flatMap text = ts.flatMap text := by
  induction ts generalizing xs with
  | nil => exact ⟨[], rfl⟩
  | cons t ts ih =>
    rw [List.map_cons, List.mapM_cons] at h
    obtain ⟨x, hx, h⟩ := Option.bind_eq_some_iff.1 h
    obtain ⟨ys, hys, -⟩ := Option.bind_eq_some_iff.1 h
    obtain ⟨u, hu⟩ := t.exists_decimal_of_readPart? hx
    obtain ⟨us, hus⟩ := ih hys
    exact ⟨u :: us, by rw [List.flatMap_cons, List.flatMap_cons, hu, hus]⟩

end Token

theorem parts_decimal (D : DigitClass) (ts : List (Token .decimal)) :
    parts D (ts.flatMap Token.text) = ts.map fun t => (t.amount.text, t.word.letters) := by
  rw [← Token.flatMap_widen D, parts_flatMap_text, List.map_map]
  rfl

/-- The patterns find what reading term by term finds, whatever else they take for a digit. -/
theorem readByPatterns_eq_read (D : DigitClass) (text : String) :
    readByPatterns D text = read text := by
  by_cases hzero : Text.trimList text.toList = ['0']
  · rw [readByPatterns, read, if_pos hzero, if_pos hzero]
  by_cases htokens : ∃ ts : List (Token .decimal),
      ts ≠ [] ∧ Text.trimList text.toList = ts.flatMap Token.text
  · -- decimal tokens: both patterns find them, and every amount is a number
    obtain ⟨ts, hne, hts⟩ := htokens
    have hmatches : [] ∈ (textPattern D).rests (ts.flatMap Token.text) :=
      nil_mem_rests_textPattern.2
        ⟨ts.map (Token.widen D), by simpa using hne, (Token.flatMap_widen D ts).symm⟩
    rw [read_flatMap_text hne hts, readByPatterns, if_neg hzero, hts, if_neg (not_not.2 hmatches),
      parts_decimal, Token.mapM_readPart?_decimal]
    rfl
  · rw [read_eq_malformed hzero htokens, readByPatterns, if_neg hzero]
    split
    · rfl
    next hmatches =>
      -- the text matches, so some amount has a digit that no number is read from
      obtain ⟨ts, hne, hts⟩ := nil_mem_rests_textPattern.1 (not_not.1 hmatches)
      rw [hts, parts_flatMap_text]
      split
      · rfl
      next xs hxs =>
        obtain ⟨us, hus⟩ := Token.exists_decimal_of_mapM_readPart? hxs
        refine absurd ⟨us, ?_, hts.trans hus.symm⟩ htokens
        rintro rfl
        exact Token.flatMap_text_ne_nil hne hus.symm

end BackupProfiles.Duration
