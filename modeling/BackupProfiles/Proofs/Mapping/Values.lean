import BackupProfiles.Proofs.Mapping.Lookup

/-!
# Rewriting the values of a mapping

A rewriting that goes by keys leaves the keys and their order as they are, so it can be done before
a mapping is read or changed, or after it, as long as it is the same for keys that are
(`RespectsKeys`). Sections are read by the texts of their keys, tags or not, and so their values are
rewritten (`GoesByTexts`).
-/

namespace BackupProfiles

namespace Value

/-- The text that a key goes by, tags or not. The two zeros are one key and go by one text. -/
def keyName (key : Value) : String :=
  match key.untagged with
  | .number (.float x) => if x.isZero then "0.0" else (Number.float x).text
  | k => k.keyText.getD ""

variable {j k key : Value}

@[simp]
theorem keyName_string (s : String) : (string s).keyName = s := rfl

theorem keyName_of_untagged {s : String} (h : key.untagged = .string s) : key.keyName = s := by
  rw [keyName, h]
  rfl

/-- A key goes by its own text, but for zeros and for keys without one. -/
theorem keyName_cases (key : Value) : (∃ name, key.untagged.keyText = some name ∧
    key.keyName = name) ∨ key.keyName ∈ ["0.0", ""] := by
  unfold keyName
  split
  · rename_i x hx
    split
    · exact Or.inr (by simp)
    · exact Or.inl ⟨_, by rw [hx]; rfl, rfl⟩
  · rcases hk : key.untagged.keyText with _ | name
    · exact Or.inr (by simp)
    · exact Or.inl ⟨name, rfl, rfl⟩

/-- Values that stand for one key go by one text. -/
theorem keyName_congr (h : j.sameKey k = true) : j.keyName = k.keyName := by
  have hsame := sameAs_of_sameKey (sameKey_untagged h)
  unfold keyName
  cases hj : j.untagged with
  | number n =>
    rw [hj] at hsame
    cases n with
    | int n => rw [show k.untagged = .number (.int n) from hsame]
    | float x =>
      obtain hk | ⟨hx, y, hk, hy⟩ := hsame
      · rw [hk]
      · rw [hk]
        simp only [hx, hy, if_true]
  | list xs =>
    rw [hj] at hsame
    obtain ⟨ys, hk, -⟩ := hsame
    rw [hk]
    rfl
  | mapping m =>
    rw [hj] at hsame
    obtain ⟨n, hk, -⟩ := hsame
    rw [hk]
    rfl
  | tagged tag v =>
    rw [hj] at hsame
    obtain ⟨w, hk, -⟩ := hsame
    rw [hk]
    rfl
  | _ =>
    rw [hj] at hsame
    rw [show k.untagged = _ from hsame]

end Value

namespace Mapping

variable {f g : Value → Value → Value}

/-- A mapping with its values rewritten, each by its key. -/
def mapValues (f : Value → Value → Value) (m : Mapping) : Mapping :=
  m.map fun e => (e.1, f e.1 e.2)

/-- A rewriting that is the same for values that stand for one key. -/
def RespectsKeys (f : Value → Value → Value) : Prop :=
  ∀ j k : Value, j.sameKey k = true → f j = f k

theorem mapValues_cons (f : Value → Value → Value) (e : Value × Value) (rest : Mapping) :
    mapValues f (e :: rest) = (e.1, f e.1 e.2) :: mapValues f rest := rfl

theorem get?_mapValues (hf : RespectsKeys f) (m : Mapping) (key : Value) :
    (m.mapValues f).get? key = (m.get? key).map (f key) := by
  induction m with
  | nil => rfl
  | cons e rest ih =>
    rw [mapValues_cons, get?_cons, get?_cons, ih]
    split
    · rename_i he
      rw [hf _ _ he, Option.map_some]
    · rfl

theorem get?_mapValues_string (f : Value → Value → Value) (m : Mapping) (s : String) :
    (m.mapValues f).get? (.string s) = (m.get? (.string s)).map (f (.string s)) := by
  induction m with
  | nil => rfl
  | cons e rest ih =>
    rw [mapValues_cons, get?_cons, get?_cons, ih]
    split
    · rename_i he
      rw [Value.sameKey_string.1 he, Option.map_some]
    · rfl

theorem mapValues_insert (hf : RespectsKeys f) (m : Mapping) (key v : Value) :
    (m.insert key v).mapValues f = (m.mapValues f).insert key (f key v) := by
  induction m with
  | nil => rfl
  | cons e rest ih =>
    rw [insert, mapValues_cons, insert]
    split
    · rename_i he
      rw [mapValues_cons, hf _ _ he]
    · rw [mapValues_cons, ih]

theorem mapValues_erase (f : Value → Value → Value) (m : Mapping) (key : Value) :
    (m.erase key).mapValues f = (m.mapValues f).erase key := by
  induction m with
  | nil => rfl
  | cons e rest ih =>
    rw [erase, mapValues_cons, erase]
    split
    · rcases hl : rest.getLast? with _ | final
      · simp [mapValues, hl]
      · simp [mapValues, hl, List.map_dropLast]
    · rw [mapValues_cons, ih]

theorem mapValues_congr {m : Mapping} (h : ∀ e ∈ m, f e.1 e.2 = g e.1 e.2) :
    m.mapValues f = m.mapValues g :=
  List.map_congr_left fun e he => by rw [h e he]

theorem mapValues_mapValues (f g : Value → Value → Value) (m : Mapping) :
    (m.mapValues f).mapValues g = m.mapValues fun key v => g key (f key v) :=
  List.map_map

theorem filter_mapValues (keep : Value × Value → Bool) {m : Mapping}
    (h : ∀ e ∈ m, keep (e.1, f e.1 e.2) = keep e) :
    (m.mapValues f).filter keep = Mapping.mapValues f (m.filter keep) := by
  rw [mapValues, List.filter_map, mapValues]
  exact congrArg _ (List.filter_congr h)

/-- A rewriting that goes by the texts of keys, tags or not, whatever it does at other keys. -/
def GoesByTexts (f : Value → Value → Value) (g : String → Value → Value) : Prop :=
  ∀ (key : Value) (s : String), key.untagged = .string s → f key = g s

end Mapping

end BackupProfiles
