import BackupProfiles.Proofs.Reading.Record
import BackupProfiles.Proofs.Secrets.Confidential
import BackupProfiles.Proofs.Secrets.Reading

/-!
# Reading hidden calls

Calls and headers are records that are written as maps or as lists, their keys names or numbers of
fields. Whichever way, a record is read blindly at positions that spare the fields it shows
(`readRecord?_redact`); so moments are read blindly, taken as lists of calls or as single ones.
-/

namespace BackupProfiles

variable {α σ : Type} {c d : Positions} {name : String}

def Header.hide (h : Header) : Header := { h with value := h.value.hidden }

def Call.hide (c : Call) : Call :=
  { c with url := c.url.hidden, headers := c.headers.map Header.hide }

def Hooks.hide (h : Hooks) : Hooks := h.map Call.hide

theorem option_cases_of_map_eq {f : α → σ} {x y : Option α} (h : x.map f = y.map f) :
    (x = none ∧ y = none) ∨ ∃ a b, x = some a ∧ y = some b ∧ f a = f b := by
  rcases x with _ | a <;> rcases y with _ | b <;> simp at h
  · exact Or.inl ⟨rfl, rfl⟩
  · exact Or.inr ⟨a, b, rfl, rfl, h⟩

section Records

/-- What may be hidden of the value of a field. -/
abbrev Sparing := String → Positions → Prop

/-- Entries with the strings of every value hidden at positions that spare its field. -/
def Entries.Redacted (P : Sparing) (es shown : Entries) : Prop :=
  List.Forall₂ (fun e e' => e.1 = e'.1 ∧ ∃ c, P e'.1 c ∧ e.2 = e'.2.redact c) es shown

namespace Entries.Redacted

variable {P : Sparing} {es shown : Entries}

theorem names_eq (h : es.Redacted P shown) : es.map (·.1) = shown.map (·.1) := by
  induction h with
  | nil => rfl
  | cons he _ ih => rw [List.map_cons, List.map_cons, he.1, ih]

theorem filter (h : es.Redacted P shown) (keep : String → Bool) :
    Entries.Redacted P (es.filter fun e => keep e.1) (shown.filter fun e => keep e.1) := by
  induction h with
  | nil => exact List.Forall₂.nil
  | cons he _ ih =>
    rw [List.filter_cons, List.filter_cons, he.1]
    split
    · exact List.Forall₂.cons he ih
    · exact ih

theorem get? (h : es.Redacted P shown) (name : String) :
    (es.get? name = none ∧ shown.get? name = none) ∨
      ∃ v c, P name c ∧ es.get? name = some (v.redact c) ∧ shown.get? name = some v := by
  rw [get?_eq, get?_eq]
  induction h with
  | nil => exact Or.inl ⟨rfl, rfl⟩
  | cons he _ ih =>
    obtain ⟨hname, c, hc, hv⟩ := he
    rw [entryFor?_cons, entryFor?_cons, hname]
    split
    · rename_i hn
      exact Or.inr ⟨_, c, hn ▸ hc, by rw [hv], rfl⟩
    · exact ih

/-- A field that is read blindly wherever it is spared. -/
theorem readField? {r : Reader α} {hide : α → α} (h : es.Redacted P shown)
    (hr : ∀ c, P name c → r.Blind hide c) (default : α) :
    (es.readField? name r default).map hide = (shown.readField? name r default).map hide := by
  unfold Entries.readField?
  rcases h.get? name with ⟨hes, hshown⟩ | ⟨v, c, hc, hes, hshown⟩
  · rw [hes, hshown]
  · rw [hes, hshown]
    exact (hr c hc).toOption v

/-- A field that shows all that it is read from. -/
theorem readField?_eq {r : Reader α} (h : es.Redacted P shown)
    (hr : ∀ c, P name c → ∀ v : Value, r (v.redact c) = r v) (default : α) :
    es.readField? name r default = shown.readField? name r default := by
  have hblind : ∀ c, P name c → r.Blind id c := fun c hc => Reader.Blind.of_eq (hr c hc)
  have hid := h.readField? hblind default
  rwa [Option.map_id_fun, id, id] at hid

end Entries.Redacted

theorem Number.keyName_of_word64? {n : Number} {i : Nat} (h : n.word64? = some i) :
    (Value.number n).keyName = Text.natText i := by
  cases n with
  | float x => cases h
  | int j =>
    simp only [word64?, Bool.and_eq_true, decide_eq_true_eq, Option.ite_none_right_eq_some,
      Option.some.injEq] at h
    obtain ⟨⟨hnonneg, -⟩, rfl⟩ := h
    show Text.intText j = Text.natText j.toNat
    rw [Text.intText, if_neg (by omega)]
    congr 1
    omega

variable {names : List String} {P : Sparing}

/-- Positions that spare every field of a record, whichever way it is written. -/
structure Spares (names : List String) (P : Sparing) (c : Positions) : Prop where
  name : ∀ s, P s (c.under (.key s))
  number : ∀ i, P (names.getD i "") (c.under (.key (Text.natText i)))
  item : ∀ i, P (names.getD i "") (c.under (.item i))

theorem keyed?_redact (h : Spares names P c) : ∀ m : Mapping,
    (keyed? names (m.redact c) = none ∧ keyed? names m = none) ∨
      ∃ es shown, Entries.Redacted P es shown ∧ keyed? names (m.redact c) = some es ∧
        keyed? names m = some shown
  | [] => Or.inr ⟨[], [], List.Forall₂.nil, rfl, rfl⟩
  | (k, v) :: rest => by
    have hfield : ∀ s, fieldOfKey? names k = some s → P s (c.under (.key k.keyName)) := by
      intro s hs
      cases k with
      | string t =>
        obtain rfl := Option.some.inj hs
        exact h.name t
      | number n =>
        obtain ⟨i, hi, rfl⟩ := Option.map_eq_some_iff.1 hs
        rw [Number.keyName_of_word64? hi]
        exact h.number i
      | _ => cases hs
    rw [Mapping.redact_cons, keyed?_cons, keyed?_cons]
    rcases hk : fieldOfKey? names k with _ | s
    · exact Or.inl ⟨rfl, rfl⟩
    · rcases keyed?_redact h rest with ⟨hes, hshown⟩ | ⟨es, shown, hr, hes, hshown⟩
      · rw [hes, hshown]
        exact Or.inl ⟨rfl, rfl⟩
      · rw [hes, hshown]
        exact Or.inr ⟨(s, v.redact (c.under (.key k.keyName))) :: es, (s, v) :: shown,
          List.Forall₂.cons ⟨rfl, _, hfield s hk, rfl⟩ hr, rfl, rfl⟩

theorem zip_redactItems (h : ∀ i, P (names.getD i "") (c.under (.item i))) (items : List Value) :
    Entries.Redacted P (names.zip (Value.redactItems c 0 items)) (names.zip items) := by
  -- the number of the first item grows as names are used up
  have hfrom : ∀ (items : List Value) (rest : List String) (i : Nat),
      (∀ j, rest.getD j "" = names.getD (i + j) "") →
      Entries.Redacted P (rest.zip (Value.redactItems c i items)) (rest.zip items) := by
    intro items
    induction items with
    | nil =>
      intro rest i _
      rw [Value.redactItems, List.zip_nil_right]
      exact List.Forall₂.nil
    | cons v items ih =>
      intro rest i hrest
      cases rest with
      | nil => exact List.Forall₂.nil
      | cons n rest =>
        have hn : n = names.getD i "" := hrest 0
        refine List.Forall₂.cons ⟨rfl, _, ?_, rfl⟩ (ih rest (i + 1) fun j => ?_)
        · rw [hn]
          exact h i
        · have hj := hrest (j + 1)
          rwa [← Nat.add_assoc, Nat.add_right_comm] at hj
  exact hfrom items names 0 fun j => by rw [Nat.zero_add]

theorem length_redactItems (c : Positions) (items : List Value) (i : Nat) :
    (Value.redactItems c i items).length = items.length := by
  induction items generalizing i with
  | nil => rfl
  | cons v rest ih => rw [Value.redactItems, List.length_cons, List.length_cons, ih]

theorem readRecord?_redact {build? : Entries → Option σ} {hide : σ → σ} (h : Spares names P c)
    (hb : ∀ {es shown}, Entries.Redacted P es shown →
      (build? es).map hide = (build? shown).map hide) (v : Value) :
    (readRecord? names build? (v.redact c)).map hide = (readRecord? names build? v).map hide := by
  cases v with
  | mapping m =>
    rw [Value.redact_mapping, readRecord?_mapping, readRecord?_mapping]
    rcases keyed?_redact h m with ⟨hes, hshown⟩ | ⟨es, shown, hr, hes, hshown⟩
    · rw [hes, hshown]
    · have hfields := hr.filter fun s => names.contains s
      rw [hes, hshown, Option.bind_some, Option.bind_some]
      simp only [hfields.names_eq]
      split
      · exact hb hfields
      · rfl
  | list items =>
    rw [Value.redact_list, readRecord?, readRecord?, length_redactItems]
    split
    · exact hb (zip_redactItems h.item items)
    · rfl
  | string s => rw [Value.redact_string, readRecord?, readRecord?] <;> simp
  | _ => simp [readRecord?]

theorem mapM_redactItems {read? : Value → Option σ} {hide : σ → σ}
    (h : ∀ i v, (read? (Value.redact (c.under (.item i)) v)).map hide = (read? v).map hide)
    (items : List Value) (i : Nat) :
    ((Value.redactItems c i items).mapM read?).map (List.map hide) =
      (items.mapM read?).map (List.map hide) := by
  induction items generalizing i with
  | nil => rfl
  | cons v rest ih =>
    rw [Value.redactItems, option_mapM_cons, option_mapM_cons]
    rcases option_cases_of_map_eq (h i v) with ⟨ha, hb⟩ | ⟨a, b, ha, hb, hab⟩
    · rw [ha, hb]
      rfl
    · rw [ha, hb]
      rcases option_cases_of_map_eq (ih (i + 1)) with ⟨hl, hm⟩ | ⟨l, m, hl, hm, hlm⟩
      · rw [hl, hm]
        rfl
      · rw [hl, hm]
        exact congrArg some (congrArg₂ List.cons hab hlm)

end Records

namespace Header

variable {es shown : Entries}

def sparing : Sparing := fun field c => field = "name" → c [] = false

/-- Positions that spare the names of headers. -/
abbrev Spared (c : Positions) : Prop := Spares ["name", "value"] sparing c

theorem Spared.of_name (hk : c [.key "name"] = false) (hn : c [.key "0"] = false)
    (hi : c [.item 0] = false) : Spared c := by
  have hfirst : ∀ i, ["name", "value"].getD i "" = "name" → i = 0 := by
    intro i h
    match i with
    | 0 => rfl
    | 1 => exact absurd h (by decide)
    | _ + 2 => exact absurd (show "" = "name" from h) (by decide)
  refine ⟨fun s hs => ?_, fun i h => ?_, fun i h => ?_⟩
  · rw [hs]
    exact hk
  · rw [hfirst i h]
    exact hn
  · rw [hfirst i h]
    exact hi

theorem spared_confidential : Spared confidential := Spared.of_name rfl rfl rfl

theorem ofEntries?_redacted (h : es.Redacted sparing shown) :
    (ofEntries? es).map hide = (ofEntries? shown).map hide := by
  have hname : es.readField? "name" Reader.text "" = shown.readField? "name" Reader.text "" :=
    h.readField?_eq (fun c hc => Reader.text_redact (hc rfl)) ""
  have hvalue : (es.readField? "value" Reader.secret ⟨""⟩).map Secret.hidden =
      (shown.readField? "value" Reader.secret ⟨""⟩).map Secret.hidden :=
    h.readField? (fun c _ => Reader.blind_secret c) ⟨""⟩
  unfold ofEntries?
  rw [hname]
  rcases shown.readField? "name" Reader.text "" with _ | name
  · rfl
  · rcases option_cases_of_map_eq hvalue with ⟨hes, hshown⟩ | ⟨a, b, hes, hshown, hab⟩
    · rw [hes, hshown]
    · rw [hes, hshown]
      exact congrArg some (congrArg (Header.mk name) hab)

theorem read?_redact (h : Spared c) (v : Value) :
    (read? (v.redact c)).map hide = (read? v).map hide :=
  readRecord?_redact h ofEntries?_redacted v

end Header

namespace Call

variable {es shown : Entries}

def sparing : Sparing := fun field c =>
  (field ∈ ["method", "body", "body-template", "skip-tls-verification"] → c [] = false) ∧
    (field = "headers" → ∀ i, Header.Spared (c.under (.item i)))

/-- Positions that spare what is shown of calls. -/
abbrev Spared (c : Positions) : Prop := Spares fieldNames sparing c

/-- The fields of a call by their numbers. -/
theorem sparing_getD {f : Nat → Positions} (hmethod : f 0 [] = false)
    (hheaders : ∀ i, Header.Spared ((f 2).under (.item i))) (hbody : f 3 [] = false)
    (htemplate : f 4 [] = false) (hskips : f 5 [] = false) (i : Nat) : sparing (fieldNames.getD i "") (f i) := by
  match i with
  | 0 => exact ⟨fun _ => hmethod, fun h => absurd h (by decide)⟩
  | 1 => exact ⟨fun h => absurd h (by decide), fun h => absurd h (by decide)⟩
  | 2 => exact ⟨fun h => absurd h (by decide), fun _ => hheaders⟩
  | 3 => exact ⟨fun _ => hbody, fun h => absurd h (by decide)⟩
  | 4 => exact ⟨fun _ => htemplate, fun h => absurd h (by decide)⟩
  | 5 => exact ⟨fun _ => hskips, fun h => absurd h (by decide)⟩
  | _ + 6 =>
    exact ⟨fun h => absurd (show "" ∈ _ from h) (by decide),
      fun h => absurd (show "" = "headers" from h) (by decide)⟩

theorem spared_confidential : Spared confidential := by
  have htext : ∀ s ∈ ["method", "body", "body-template", "skip-tls-verification"],
      behind s [] = false := by decide
  have hheaders : ∀ i, Header.Spared (Header.confidential.many.under (.item i)) :=
    fun _ => Header.spared_confidential
  refine ⟨fun s => ⟨htext s, ?_⟩, sparing_getD rfl hheaders rfl rfl rfl,
    sparing_getD rfl hheaders rfl rfl rfl⟩
  rintro rfl
  exact hheaders

/-- A list that is taken as a single call hides what its items hide as calls. That spares the
fields of the single call, as the strings that are hidden are too deep for them. -/
theorem spared_many_confidential : Spared confidential.many := by
  have hheader : ∀ i, Header.Spared (confidential.under (.item i)) := by
    intro i
    match i with
    | 0 => exact Header.Spared.of_name rfl rfl rfl
    | 1 => exact Header.Spared.of_name rfl rfl rfl
    | 2 => exact Header.Spared.of_name rfl rfl rfl
    | _ + 3 => exact Header.Spared.of_name rfl rfl rfl
  exact ⟨spared_confidential.name, spared_confidential.number,
    sparing_getD rfl hheader rfl rfl rfl⟩

theorem headers?_redact (h : ∀ i, Header.Spared (c.under (.item i))) :
    headers?.Blind (List.map Header.hide) c := by
  intro v
  cases v with
  | list items =>
    rw [Value.redact_list, headers?, headers?]
    rcases option_cases_of_map_eq (mapM_redactItems (fun i => Header.read?_redact (h i)) items 0)
      with ⟨hr, hs⟩ | ⟨l, m, hr, hs, hlm⟩
    · rw [hr, hs]
    · rw [hr, hs]
      exact congrArg Except.ok hlm
  | string s => rw [Value.redact_string]; rfl
  | mapping m => rw [Value.redact_mapping]; rfl
  | tagged tag content => rw [Value.redact_tagged]; rfl
  | _ => simp

theorem ofEntries?_redacted (h : es.Redacted sparing shown) :
    (ofEntries? es).map hide = (ofEntries? shown).map hide := by
  have hspared : ["method", "body", "body-template"] ⊆
      ["method", "body", "body-template", "skip-tls-verification"] := by decide
  have htext : ∀ s ∈ ["method", "body", "body-template"],
      es.readField? s Reader.text "" = shown.readField? s Reader.text "" :=
    fun s hs => h.readField?_eq (fun c hc => Reader.text_redact (hc.1 (hspared hs))) ""
  have hskips : es.readField? "skip-tls-verification" Reader.switch false =
      shown.readField? "skip-tls-verification" Reader.switch false :=
    h.readField?_eq (fun c hc => Reader.switch_redact (hc.1 (by decide))) false
  have hurl : (es.readField? "url" Reader.secret ⟨""⟩).map Secret.hidden =
      (shown.readField? "url" Reader.secret ⟨""⟩).map Secret.hidden :=
    h.readField? (fun c _ => Reader.blind_secret c) ⟨""⟩
  have hheaders : (es.readField? "headers" headers? []).map (List.map Header.hide) =
      (shown.readField? "headers" headers? []).map (List.map Header.hide) :=
    h.readField? (fun c hc => headers?_redact (hc.2 rfl)) []
  unfold ofEntries?
  rw [htext "method" (by decide), htext "body" (by decide), htext "body-template" (by decide),
    hskips]
  rcases shown.readField? "method" Reader.text "" with _ | method
  · rfl
  rcases option_cases_of_map_eq hurl with ⟨hes, hshown⟩ | ⟨a, b, hes, hshown, hab⟩
  · rw [hes, hshown]
    rfl
  rw [hes, hshown]
  rcases option_cases_of_map_eq hheaders with ⟨hes, hshown⟩ | ⟨l, m, hes, hshown, hlm⟩
  · rw [hes, hshown]
    rfl
  rw [hes, hshown]
  rcases shown.readField? "body" Reader.text "" with _ | body
  · rfl
  rcases shown.readField? "body-template" Reader.text "" with _ | template
  · rfl
  rcases shown.readField? "skip-tls-verification" Reader.switch false with _ | skips
  · rfl
  · refine congrArg some ?_
    change Call.mk method a.hidden (l.map Header.hide) body template skips =
      Call.mk method b.hidden (m.map Header.hide) body template skips
    rw [hab, hlm]

theorem read?_redact (h : Spared c) (v : Value) :
    (read? (v.redact c)).map hide = (read? v).map hide :=
  readRecord?_redact h ofEntries?_redacted v

theorem blind_readOne (h : Spared c) : readOne.Blind (List.map hide) c := by
  intro v
  rw [readOne, readOne, Mismatch.ofVariants_redact]
  rcases option_cases_of_map_eq (read?_redact h v) with ⟨hr, hs⟩ | ⟨a, b, hr, hs, hab⟩
  · rw [hr, hs]
  · rw [hr, hs]
    exact congrArg (Except.ok ∘ ([·])) hab

/-- A moment is taken as a list of calls first, and then as one call. -/
theorem blind_readSome (hone : Spared c) (hmany : ∀ i, Spared (c.under (.item i))) :
    readSome.Blind (List.map hide) c := by
  intro v
  have hsingle := blind_readOne hone v
  by_cases hn : v.kind = .null
  · cases v with
    | null => simp
    | _ => cases hn
  by_cases hl : v.kind = .list
  · cases v with
    | list items =>
      rw [Value.redact_list] at hsingle ⊢
      rw [readSome_list, readSome_list]
      rcases option_cases_of_map_eq (mapM_redactItems (fun i => read?_redact (hmany i)) items 0)
        with ⟨hr, hs⟩ | ⟨l, m, hr, hs, hlm⟩
      -- some item is no call, in either list
      · rw [hr, hs]
        exact hsingle
      · rw [hr, hs]
        exact congrArg Except.ok hlm
    | _ => cases hl
  · rw [readSome_of_not_list hn hl, readSome_of_not_list (by rwa [Value.kind_redact])
      (by rwa [Value.kind_redact])]
    exact hsingle

/-- The calls of a moment, wherever it stands. -/
theorem blind_moment : readSome.Blind (List.map hide) confidential.many :=
  blind_readSome spared_many_confidential fun _ => spared_confidential

end Call

/-- Checks of fields behind which nothing is hidden. -/
theorem FieldChecks.blind_of_none {g : FieldChecks}
    (h : ∀ name ∈ Shape.names g, c.under (.key name) = Positions.none) : g.Blind c := by
  intro e he v
  rw [h e.1 (List.mem_map_of_mem he), Value.redact_none]

namespace Hooks

theorem blind_checks
    (h : ∀ name ∈ Shape.names checks, c.under (.key name) = Call.confidential.many) :
    checks.Blind c := by
  intro e he v
  have hname := List.mem_map_of_mem (f := Prod.fst) he
  have hcheck : e.2 = Call.readSome.fault? := by
    simp only [checks, List.mem_cons, List.not_mem_nil, or_false] at he
    rcases he with rfl | rfl | rfl | rfl <;> rfl
  rw [hcheck, h e.1 hname]
  exact Call.blind_moment.fault?_eq v

theorem ofEntries_redact
    (h : ∀ name ∈ Shape.names checks, c.under (.key name) = Call.confidential.many) (es : Entries) :
    (ofEntries (es.redact c)).hide = (ofEntries es).hide := by
  have hmoment : ∀ name ∈ Shape.names checks,
      ((es.redact c).read name Call.readSome []).map Call.hide =
        (es.read name Call.readSome []).map Call.hide :=
    fun name hn => Entries.read_redact (h name hn ▸ Call.blind_moment) es []
  unfold ofEntries hide map
  rw [hmoment "send-before" (by decide), hmoment "send-after" (by decide),
    hmoment "send-after-fail" (by decide), hmoment "send-finally" (by decide)]

end Hooks

theorem Timing.ofEntries_redact
    (h : ∀ name ∈ Shape.names checks, c.under (.key name) = Positions.none) (es : Entries) :
    ofEntries (es.redact c) = ofEntries es := by
  have hfield : ∀ {α : Type} (name : String) (r : Reader α) (default : α),
      name ∈ Shape.names checks → (es.redact c).read name r default = es.read name r default :=
    fun name r default hn => Entries.read_redact_of_none (h name hn) es r default
  unfold ofEntries
  rw [hfield "schedule" _ _ (by decide), hfield "schedule-permission" _ _ (by decide),
    hfield "schedule-log" _ _ (by decide), hfield "schedule-priority" _ _ (by decide),
    hfield "schedule-lock-mode" _ _ (by decide), hfield "schedule-lock-wait" _ _ (by decide)]

end BackupProfiles
