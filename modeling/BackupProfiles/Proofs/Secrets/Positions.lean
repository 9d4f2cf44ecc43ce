import BackupProfiles.Proofs.Mapping.Values
import BackupProfiles.Secret

/-!
# Positions in a value

A string of a value stands at the end of a path of keys and items, and `Positions` say at which
paths strings are hidden. `Value.redact` writes the marker of secrets for every string there that is
not empty and leaves everything else as it is. So two values have one redaction exactly when they
differ in nothing but such strings.

Merging moves the items of a list and puts values that are no lists into one. `Positions.many` are
positions that do not change by that.
-/

namespace BackupProfiles

/-- A step from a value to a part of it; a key goes by its text. -/
inductive Branch where
  | key (name : String)
  | item (index : Nat)
  deriving DecidableEq, Repr

def Branch.isKey : Branch → Bool
  | key _ => true
  | item _ => false

abbrev Positions := List Branch → Bool

namespace Positions

variable {c d : Positions}

def none : Positions := fun _ => false

/-- The value itself. -/
def here : Positions := List.isEmpty

/-- What is left of positions after one step. -/
def under (c : Positions) (b : Branch) : Positions := fun path => c (b :: path)

/-- The positions of one value, or of every value of a list. -/
def many (c : Positions) : Positions
  | .item _ :: rest => c rest
  | path => c path

/-- The positions behind a tag. Merging does not tell a list with a tag from other values, so of the
paths into its items only the keys count. -/
def behindTag (c : Positions) : Positions
  | .item _ :: rest => c (rest.filter Branch.isKey)
  | path => c path

def Within (c d : Positions) : Prop := ∀ path, c path = true → d path = true

@[simp]
theorem under_apply (c : Positions) (b : Branch) (path : List Branch) :
    c.under b path = c (b :: path) := rfl

@[simp]
theorem under_none (b : Branch) : none.under b = none := rfl

@[simp]
theorem behindTag_none : none.behindTag = none := by
  funext path
  unfold behindTag
  split <;> rfl

@[simp]
theorem behindTag_nil (c : Positions) : c.behindTag [] = c [] := rfl

@[simp]
theorem under_behindTag_key (c : Positions) (name : String) :
    c.behindTag.under (.key name) = c.under (.key name) := rfl

@[simp]
theorem many_nil (c : Positions) : c.many [] = c [] := rfl

@[simp]
theorem many_none : none.many = none := by
  funext path
  unfold many
  split <;> rfl

@[simp]
theorem under_many_item (c : Positions) (i : Nat) : c.many.under (.item i) = c := rfl

@[simp]
theorem under_many_key (c : Positions) (name : String) :
    c.many.under (.key name) = c.under (.key name) := rfl

theorem many_of_keys {path : List Branch} (h : ∀ b ∈ path, b.isKey = true) :
    c.many path = c path := by
  cases path with
  | nil => rfl
  | cons b rest =>
    cases b with
    | key name => rfl
    | item i => exact absurd (h _ List.mem_cons_self) (by simp [Branch.isKey])

@[simp]
theorem behindTag_many (c : Positions) : c.many.behindTag = c.behindTag := by
  funext path
  cases path with
  | nil => rfl
  | cons b rest =>
    cases b with
    | key name => rfl
    | item i => exact many_of_keys fun b hb => (List.mem_filter.1 hb).2

namespace Within

theorem refl (c : Positions) : c.Within c := fun _ h => h

theorem none (d : Positions) : Positions.none.Within d := by
  intro path h
  cases h

theorem under (h : c.Within d) (b : Branch) : (c.under b).Within (d.under b) :=
  fun path => h (b :: path)

theorem behindTag (h : c.Within d) : c.behindTag.Within d.behindTag := by
  intro path hc
  cases path with
  | nil => exact h _ hc
  | cons b rest =>
    cases b with
    | key name => exact h _ hc
    | item i => exact h _ hc

end Within

end Positions

namespace Secret

/-- A secret as it is shown. -/
def hidden (s : Secret) : Secret := ⟨s.redacted⟩

theorem redacted_eq_empty_iff {s : Secret} : s.redacted = "" ↔ s.reveal = "" := by
  unfold redacted isEmpty
  by_cases h : s.reveal = "" <;> simp [h, marker]

@[simp]
theorem redacted_hidden (s : Secret) : s.hidden.redacted = s.redacted := by
  by_cases h : s.reveal = "" <;> simp [hidden, redacted, isEmpty, h, marker]

@[simp]
theorem hidden_hidden (s : Secret) : s.hidden.hidden = s.hidden :=
  congrArg mk s.redacted_hidden

end Secret

namespace Value

mutual

/-- The value with its strings at some positions hidden. -/
def redact (c : Positions) : Value → Value
  | .string s => .string (if c [] then Secret.redacted ⟨s⟩ else s)
  | .list items => .list (redactItems c 0 items)
  | .mapping entries => .mapping (redactEntries c entries)
  | .tagged tag content => .tagged tag (redact c.behindTag content)
  | v => v

def redactItems (c : Positions) (i : Nat) : List Value → List Value
  | [] => []
  | v :: rest => redact (c.under (.item i)) v :: redactItems c (i + 1) rest

def redactEntries (c : Positions) : List (Value × Value) → List (Value × Value)
  | [] => []
  | (k, v) :: rest => (k, redact (c.under (.key k.keyName)) v) :: redactEntries c rest

end

end Value

/-- A mapping with the strings at some positions hidden. -/
def Mapping.redact (c : Positions) (m : Mapping) : Mapping :=
  m.map fun e => (e.1, e.2.redact (c.under (.key e.1.keyName)))

namespace Value

variable {c d : Positions}

theorem redactEntries_eq (c : Positions) (m : Mapping) : redactEntries c m = m.redact c := by
  induction m with
  | nil => rfl
  | cons e rest ih => rw [redactEntries, ih]; rfl

theorem redact_string (c : Positions) (s : String) :
    (string s).redact c = .string (if c [] then Secret.redacted ⟨s⟩ else s) := by
  rw [redact]

theorem redact_string_of_shown (h : c [] = false) (s : String) :
    (string s).redact c = .string s := by
  rw [redact_string, h]
  rfl

@[simp]
theorem redact_mapping (c : Positions) (m : Mapping) :
    (mapping m).redact c = .mapping (m.redact c) := by
  rw [redact, redactEntries_eq]

@[simp]
theorem redact_list (c : Positions) (items : List Value) :
    (list items).redact c = .list (redactItems c 0 items) := by
  rw [redact]

@[simp]
theorem redact_tagged (c : Positions) (tag : String) (content : Value) :
    (tagged tag content).redact c = .tagged tag (content.redact c.behindTag) := by
  rw [redact]

@[simp]
theorem redact_null (c : Positions) : null.redact c = null := by simp [redact]

@[simp]
theorem redact_bool (c : Positions) (b : Bool) : (bool b).redact c = bool b := by simp [redact]

@[simp]
theorem redact_number (c : Positions) (n : Number) : (number n).redact c = number n := by
  simp [redact]

/-- Where the number of an item is no matter, items are redacted one by one. -/
theorem redactItems_eq_map (h : ∀ i, c.under (.item i) = d) (i : Nat) (items : List Value) :
    redactItems c i items = items.map (redact d) := by
  induction items generalizing i with
  | nil => rfl
  | cons v rest ih => rw [redactItems, h, ih, List.map_cons]

@[simp]
theorem redact_list_many (c : Positions) (items : List Value) :
    (list items).redact c.many = .list (items.map (redact c)) := by
  rw [redact_list, redactItems_eq_map (c.under_many_item)]

/-- A value that is no list is redacted alike by itself and as the item of a list. -/
theorem redact_many {v : Value} (h : v.kind ≠ .list) : v.redact c.many = v.redact c := by
  cases v with
  | list items => exact absurd rfl h
  | mapping m => rw [redact_mapping, redact_mapping]; rfl
  | string s => rw [redact_string, redact_string, Positions.many_nil]
  | tagged tag content => rw [redact_tagged, redact_tagged, Positions.behindTag_many]
  | _ => simp

@[simp]
theorem mapping?_redact (c : Positions) (v : Value) :
    (v.redact c).mapping? = v.mapping?.map (Mapping.redact c) := by
  cases v <;> simp [mapping?, redact_string]

@[simp]
theorem kind_redact (c : Positions) (v : Value) : (v.redact c).kind = v.kind := by
  cases v <;> simp [kind, redact_string]

mutual

@[simp]
theorem redact_none : ∀ v : Value, v.redact Positions.none = v
  | .string s => redact_string_of_shown rfl s
  | .list items => by rw [redact_list, redactItems_none]
  | .mapping m => by rw [redact, redactEntries_none]
  | .tagged tag content => by rw [redact_tagged, Positions.behindTag_none, redact_none]
  | .null | .bool _ | .number _ => by simp

theorem redactItems_none : ∀ (items : List Value) (i : Nat),
    redactItems Positions.none i items = items
  | [], _ => rfl
  | v :: rest, i => by rw [redactItems, Positions.under_none, redact_none, redactItems_none]

theorem redactEntries_none : ∀ entries : List (Value × Value),
    redactEntries Positions.none entries = entries
  | [] => rfl
  | (k, v) :: rest => by rw [redactEntries, Positions.under_none, redact_none, redactEntries_none]

end

mutual

/-- Hiding less first makes no difference. -/
theorem redact_redact : ∀ (v : Value) {c d : Positions}, c.Within d →
    (v.redact c).redact d = v.redact d
  | .string s, c, d, h => by
    simp only [redact_string]
    rcases hc : c [] with _ | _
    · rfl
    · have hs : Secret.redacted ⟨Secret.redacted ⟨s⟩⟩ = Secret.redacted ⟨s⟩ :=
        Secret.redacted_hidden ⟨s⟩
      simp [h [] hc, hs]
  | .list items, c, d, h => by
    rw [redact_list, redact_list, redact_list, redactItems_redactItems items h]
  | .mapping m, c, d, h => by
    rw [redact, redact, redact, redactEntries_redactEntries m h]
  | .tagged tag content, c, d, h => by
    rw [redact_tagged, redact_tagged, redact_tagged, redact_redact content h.behindTag]
  | .null, _, _, _ | .bool _, _, _, _ | .number _, _, _, _ => by simp

theorem redactItems_redactItems : ∀ (items : List Value) {c d : Positions}, c.Within d →
    ∀ {i : Nat}, redactItems d i (redactItems c i items) = redactItems d i items
  | [], _, _, _, _ => rfl
  | v :: rest, c, d, h, i => by
    rw [redactItems, redactItems, redactItems, redact_redact v (h.under _),
      redactItems_redactItems rest h]

theorem redactEntries_redactEntries : ∀ (entries : List (Value × Value)) {c d : Positions},
    c.Within d → redactEntries d (redactEntries c entries) = redactEntries d entries
  | [], _, _, _ => rfl
  | (k, v) :: rest, c, d, h => by
    rw [redactEntries, redactEntries, redactEntries, redact_redact v (h.under _),
      redactEntries_redactEntries rest h]

end

mutual

@[simp]
theorem hasTag_redact : ∀ (v : Value) (c : Positions), (v.redact c).hasTag = v.hasTag
  | .list items, c => by rw [redact_list, hasTag, hasTag, anyHasTag_redactItems]
  | .mapping m, c => by rw [redact, hasTag, hasTag, anyEntryHasTag_redactEntries]
  | .tagged _ _, _ => by rw [redact_tagged, hasTag, hasTag]
  | .string _, _ => by simp [redact_string, hasTag]
  | .null, _ | .bool _, _ | .number _, _ => by simp

theorem anyHasTag_redactItems : ∀ (items : List Value) (c : Positions) (i : Nat),
    anyHasTag (redactItems c i items) = anyHasTag items
  | [], _, _ => rfl
  | v :: rest, c, i => by
    rw [redactItems, anyHasTag, anyHasTag, hasTag_redact, anyHasTag_redactItems]

theorem anyEntryHasTag_redactEntries : ∀ (entries : List (Value × Value)) (c : Positions),
    anyEntryHasTag (redactEntries c entries) = anyEntryHasTag entries
  | [], _ => rfl
  | (k, v) :: rest, c => by
    rw [redactEntries, anyEntryHasTag, anyEntryHasTag, hasTag_redact, anyEntryHasTag_redactEntries]

end

/-- Readers that see through tags see the same keys and strings redacted. -/
theorem untagged_redact : ∀ (v : Value) (c : Positions), ∃ d : Positions,
    (v.redact c).untagged = v.untagged.redact d ∧ d [] = c [] ∧
      ∀ name, d.under (.key name) = c.under (.key name)
  | .tagged tag content, c => by
    obtain ⟨d, hd, hnil, hkey⟩ := untagged_redact content c.behindTag
    refine ⟨d, ?_, hnil, hkey⟩
    rw [redact_tagged, untagged, untagged, hd]
  | .string _, c => ⟨c, by simp [redact_string, untagged], rfl, fun _ => rfl⟩
  | .list _, c | .mapping _, c | .null, c | .bool _, c | .number _, c =>
    ⟨c, by simp [untagged], rfl, fun _ => rfl⟩

end Value

namespace Mapping

variable {m n : Mapping} {c d : Positions} {key v : Value}

@[simp]
theorem redact_nil (c : Positions) : redact c [] = [] := rfl

@[simp]
theorem redact_cons (c : Positions) (e : Value × Value) (rest : Mapping) :
    redact c (e :: rest) = (e.1, e.2.redact (c.under (.key e.1.keyName))) :: redact c rest := rfl

theorem redact_congr (h : ∀ name, c.under (.key name) = d.under (.key name)) (m : Mapping) :
    m.redact c = m.redact d := by
  unfold redact
  simp only [h]

theorem redact_redact (h : c.Within d) (m : Mapping) : (m.redact c).redact d = m.redact d := by
  rw [← Value.redactEntries_eq, ← Value.redactEntries_eq, ← Value.redactEntries_eq,
    Value.redactEntries_redactEntries m h]

theorem respectsKeys_redact (c : Positions) :
    RespectsKeys fun key => Value.redact (c.under (.key key.keyName)) := fun j k h => by
  simp only [Value.keyName_congr h]

@[simp]
theorem get?_redact (c : Positions) (m : Mapping) (key : Value) :
    (m.redact c).get? key = (m.get? key).map (Value.redact (c.under (.key key.keyName))) :=
  get?_mapValues (respectsKeys_redact c) m key

theorem redact_insert (c : Positions) (m : Mapping) (key v : Value) :
    (m.insert key v).redact c =
      (m.redact c).insert key (v.redact (c.under (.key key.keyName))) :=
  mapValues_insert (respectsKeys_redact c) m key v

theorem redact_erase (c : Positions) (m : Mapping) (key : Value) :
    (m.erase key).redact c = (m.redact c).erase key :=
  mapValues_erase (fun k v => Value.redact (c.under (.key k.keyName)) v) m key

end Mapping

end BackupProfiles
