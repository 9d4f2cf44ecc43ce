import BackupProfiles.Value.Basic
import Mathlib.Data.List.Forall2

/-!
# Values that stand for one key

Whether two values stand for one key is an equivalence (`sameKey_self`, `sameKey_symm`,
`sameKey_trans`), so a mapping can be looked up by any of them. A text stands for one key with itself
and with nothing else (`sameKey_string`).
-/

namespace BackupProfiles.Value

variable {u v w : Value} {s t : String}

/-- Induction on the parts of a value, keys among them. -/
@[elab_as_elim]
theorem inductionOnParts {P : Value → Prop} (null : P .null) (bool : ∀ b, P (.bool b))
    (number : ∀ n, P (.number n)) (string : ∀ s, P (.string s))
    (list : ∀ items : List Value, (∀ v ∈ items, P v) → P (.list items))
    (mapping : ∀ m : Mapping, (∀ e ∈ m, P e.1 ∧ P e.2) → P (.mapping m))
    (tagged : ∀ tag v, P v → P (.tagged tag v)) (v : Value) : P v := by
  refine @Value.rec P (fun items => ∀ v ∈ items, P v) (fun m => ∀ e ∈ m, P e.1 ∧ P e.2)
    (fun e => P e.1 ∧ P e.2) null bool number string list mapping tagged nofun ?item nofun ?entry
    (fun key v hkey hv => ⟨hkey, hv⟩) v
  case item => exact fun v rest hv hrest => List.forall_mem_cons.2 ⟨hv, hrest⟩
  case entry => exact fun e rest he hrest => List.forall_mem_cons.2 ⟨he, hrest⟩

/-- Entries with one key and one value. -/
def SamePair (e f : Value × Value) : Prop := e.1.sameKey f.1 = true ∧ e.2.sameKey f.2 = true

theorem sameItems_iff {xs ys : List Value} :
    sameItems xs ys = true ↔ List.Forall₂ (fun x y => x.sameKey y = true) xs ys := by
  induction xs generalizing ys with
  | nil => cases ys <;> simp [sameItems]
  | cons x xs ih =>
    cases ys with
    | nil => simp [sameItems]
    | cons y ys => rw [sameItems, Bool.and_eq_true, ih, List.forall₂_cons]

theorem entriesIn_iff {m n : Mapping} :
    entriesIn m n = true ↔ ∀ e ∈ m, ∃ f ∈ n, SamePair e f := by
  induction m with
  | nil => simp [entriesIn]
  | cons e rest ih =>
    obtain ⟨key, v⟩ := e
    rw [entriesIn, Bool.and_eq_true, ih, List.forall_mem_cons, List.any_eq_true]
    simp only [Bool.and_eq_true, SamePair]

theorem entryIn_iff {m : Mapping} {key v : Value} :
    entryIn m key v = true ↔ ∃ e ∈ m, SamePair e (key, v) := by
  induction m with
  | nil => simp [entryIn]
  | cons e rest ih =>
    rw [entryIn, Bool.or_eq_true, Bool.and_eq_true, ih, List.exists_mem_cons_iff]
    rfl

theorem sameKey_mapping_iff {m n : Mapping} : (mapping m).sameKey (mapping n) = true ↔
    (∀ e ∈ m, ∃ f ∈ n, SamePair e f) ∧ ∀ f ∈ n, ∃ e ∈ m, SamePair e f := by
  rw [sameKey, Bool.and_eq_true, entriesIn_iff, List.all_eq_true]
  simp only [entryIn_iff]

theorem sameKey_self (v : Value) : v.sameKey v = true := by
  induction v using inductionOnParts with
  | null | bool | string => simp [sameKey]
  | number n => cases n <;> simp [sameKey, sameFloat]
  | list items ih =>
    rw [sameKey, sameItems_iff]
    exact List.forall₂_same.2 ih
  | mapping m ih =>
    exact sameKey_mapping_iff.2 ⟨fun e he => ⟨e, he, ih e he⟩, fun e he => ⟨e, he, ih e he⟩⟩
  | tagged tag v ih =>
    rw [sameKey, Bool.and_eq_true]
    exact ⟨beq_self_eq_true tag, ih⟩

/-- What the values look like that stand for one key with a value. -/
def SameAs : Value → Value → Prop
  | .number (.float x), w =>
    w = .number (.float x) ∨ x.isZero = true ∧ ∃ y, w = .number (.float y) ∧ y.isZero = true
  | .list xs, w => ∃ ys, w = .list ys ∧ List.Forall₂ (fun x y => x.sameKey y = true) xs ys
  | .mapping m, w => ∃ n, w = .mapping n ∧
    (∀ e ∈ m, ∃ f ∈ n, SamePair e f) ∧ ∀ f ∈ n, ∃ e ∈ m, SamePair e f
  | .tagged tag x, w => ∃ y, w = .tagged tag y ∧ x.sameKey y = true
  | v, w => w = v

theorem SameAs.refl : ∀ v : Value, SameAs v v
  | .number (.float _) => Or.inl rfl
  | .list xs => ⟨xs, rfl, List.forall₂_same.2 fun v _ => sameKey_self v⟩
  | .mapping m => ⟨m, rfl, sameKey_mapping_iff.1 (sameKey_self (.mapping m))⟩
  | .tagged _ v => ⟨v, rfl, sameKey_self v⟩
  | .null | .bool _ | .number (.int _) | .string _ => rfl

theorem sameAs_of_sameKey (h : v.sameKey w = true) : SameAs v w := by
  rw [sameKey.eq_def] at h
  split at h
  · rw [beq_iff_eq.1 h]
    exact .refl _
  · rename_i x y
    rw [sameFloat, Bool.or_eq_true, beq_iff_eq, Bool.and_eq_true] at h
    rcases h with rfl | ⟨hx, hy⟩
    · exact .refl _
    · exact Or.inr ⟨hx, y, rfl, hy⟩
  · rename_i xs ys
    exact ⟨ys, rfl, sameItems_iff.1 h⟩
  · rename_i m n
    exact ⟨n, rfl, sameKey_mapping_iff.1 (by rwa [sameKey])⟩
  · rename_i s x t y
    rw [Bool.and_eq_true, beq_iff_eq] at h
    obtain ⟨rfl, h⟩ := h
    exact ⟨y, rfl, h⟩
  · rw [beq_iff_eq.1 h]
    exact .refl _

theorem sameKey_symm (h : v.sameKey w = true) : w.sameKey v = true := by
  induction v using inductionOnParts generalizing w with
  | number n =>
    cases n with
    | int n =>
      obtain rfl : w = .number (.int n) := sameAs_of_sameKey h
      exact h
    | float x =>
      obtain rfl | ⟨hx, y, rfl, hy⟩ := sameAs_of_sameKey h
      · exact h
      · simp [sameKey, sameFloat, hx, hy]
  | list items ih =>
    obtain ⟨ys, rfl, hsame⟩ := sameAs_of_sameKey h
    rw [sameKey, sameItems_iff]
    clear h
    induction hsame with
    | nil => exact .nil
    | cons hxy _ ihrest =>
      rw [List.forall_mem_cons] at ih
      exact .cons (ih.1 hxy) (ihrest ih.2)
  | mapping m ih =>
    obtain ⟨n, rfl, hleft, hright⟩ := sameAs_of_sameKey h
    have hpair : ∀ e ∈ m, ∀ f, SamePair e f → SamePair f e := fun e he f hf =>
      ⟨(ih e he).1 hf.1, (ih e he).2 hf.2⟩
    refine sameKey_mapping_iff.2 ⟨fun f hf => ?_, fun e he => ?_⟩
    · obtain ⟨e, he, hef⟩ := hright f hf
      exact ⟨e, he, hpair e he f hef⟩
    · obtain ⟨f, hf, hef⟩ := hleft e he
      exact ⟨f, hf, hpair e he f hef⟩
  | tagged tag v ih =>
    obtain ⟨x, rfl, hsame⟩ := sameAs_of_sameKey h
    rw [sameKey, Bool.and_eq_true]
    exact ⟨beq_self_eq_true tag, ih hsame⟩
  | _ =>
    obtain rfl := sameAs_of_sameKey h
    exact h

theorem sameKey_trans (h : u.sameKey v = true) (g : v.sameKey w = true) : u.sameKey w = true := by
  induction u using inductionOnParts generalizing v w with
  | number n =>
    cases n with
    | int n =>
      obtain rfl : v = .number (.int n) := sameAs_of_sameKey h
      exact g
    | float x =>
      obtain rfl | ⟨hx, y, rfl, hy⟩ := sameAs_of_sameKey h
      · exact g
      · obtain rfl | ⟨-, z, rfl, hz⟩ := sameAs_of_sameKey g
        · exact h
        · simp [sameKey, sameFloat, hx, hz]
  | list items ih =>
    obtain ⟨ys, rfl, hfirst⟩ := sameAs_of_sameKey h
    obtain ⟨zs, rfl, hsecond⟩ := sameAs_of_sameKey g
    rw [sameKey, sameItems_iff]
    clear h g
    induction hfirst generalizing zs with
    | nil => exact hsecond
    | cons hxy _ ihrest =>
      rw [List.forall_mem_cons] at ih
      obtain ⟨z, zs, hyz, hrest, rfl⟩ := List.forall₂_cons_left_iff.1 hsecond
      exact .cons (ih.1 hxy hyz) (ihrest ih.2 _ hrest)
  | mapping m ih =>
    obtain ⟨n, rfl, hleft, hright⟩ := sameAs_of_sameKey h
    obtain ⟨k, rfl, gleft, gright⟩ := sameAs_of_sameKey g
    have hpair : ∀ e ∈ m, ∀ f g, SamePair e f → SamePair f g → SamePair e g :=
      fun e he f g hef hfg => ⟨(ih e he).1 hef.1 hfg.1, (ih e he).2 hef.2 hfg.2⟩
    refine sameKey_mapping_iff.2 ⟨fun e he => ?_, fun d hd => ?_⟩
    · obtain ⟨f, hf, hef⟩ := hleft e he
      obtain ⟨d, hd, hfd⟩ := gleft f hf
      exact ⟨d, hd, hpair e he f d hef hfd⟩
    · obtain ⟨f, hf, hfd⟩ := gright d hd
      obtain ⟨e, he, hef⟩ := hright f hf
      exact ⟨e, he, hpair e he f d hef hfd⟩
  | tagged tag v ih =>
    obtain ⟨x, rfl, hfirst⟩ := sameAs_of_sameKey h
    obtain ⟨y, rfl, hsecond⟩ := sameAs_of_sameKey g
    rw [sameKey, Bool.and_eq_true]
    exact ⟨beq_self_eq_true tag, ih hfirst hsecond⟩
  | _ =>
    obtain rfl := sameAs_of_sameKey h
    exact g

theorem sameKey_comm (v w : Value) : v.sameKey w = w.sameKey v :=
  Bool.eq_iff_iff.2 ⟨sameKey_symm, sameKey_symm⟩

/-- Values that stand for one key are the same as any other value together. -/
theorem sameKey_congr (h : v.sameKey w = true) (u : Value) : u.sameKey v = u.sameKey w :=
  Bool.eq_iff_iff.2 ⟨fun g => sameKey_trans g h, fun g => sameKey_trans g (sameKey_symm h)⟩

@[simp]
theorem string_sameKey : (string s).sameKey v = true ↔ v = .string s := by
  constructor
  · exact fun h => sameAs_of_sameKey h
  · rintro rfl
    exact sameKey_self _

@[simp]
theorem sameKey_string : v.sameKey (.string s) = true ↔ v = .string s := by
  rw [sameKey_comm, string_sameKey]

/-- Values that stand for one key have a text both or neither. -/
theorem exists_keyText_of_sameKey (h : v.sameKey w = true) (hw : w.keyText = some s) :
    ∃ t, v.keyText = some t := by
  have hsame := sameAs_of_sameKey (sameKey_symm h)
  cases w with
  | number n =>
    cases n with
    | int n =>
      obtain rfl : v = .number (.int n) := hsame
      exact ⟨_, rfl⟩
    | float x =>
      obtain rfl | ⟨-, y, rfl, -⟩ := hsame
      · exact ⟨_, rfl⟩
      · exact ⟨_, rfl⟩
  | bool b =>
    obtain rfl : v = .bool b := hsame
    exact ⟨_, rfl⟩
  | string t =>
    obtain rfl : v = .string t := hsame
    exact ⟨_, rfl⟩
  | _ => cases hw

theorem sameKey_untagged : ∀ {v w : Value}, v.sameKey w = true →
    v.untagged.sameKey w.untagged = true
  | .tagged _ v, _, h => by
    obtain ⟨x, rfl, hsame⟩ := sameAs_of_sameKey h
    rw [untagged, untagged]
    exact sameKey_untagged (v := v) hsame
  | .list _, _, h => by
    obtain ⟨ys, rfl, -⟩ := sameAs_of_sameKey h
    exact h
  | .mapping _, _, h => by
    obtain ⟨n, rfl, -⟩ := sameAs_of_sameKey h
    exact h
  | .number (.float _), _, h => by
    obtain rfl | ⟨-, y, rfl, -⟩ := sameAs_of_sameKey h
    · exact h
    · exact h
  | .null, _, h | .bool _, _, h | .number (.int _), _, h | .string _, _, h => by
    obtain rfl := sameAs_of_sameKey h
    exact h

end BackupProfiles.Value
