import BackupProfiles.Proofs.Reading.Rewritten
import BackupProfiles.Proofs.Secrets.Positions
import BackupProfiles.Section.Written
import Mathlib.Data.List.Forall2

/-!
# Reading hidden values

A reader is blind to some positions if hiding the strings there changes nothing but what is hidden
in its result, and no fault. Secrets are read blindly at any positions; everything else is read
blindly where nothing is hidden. So an open section is read blindly if its checks are blind and its
flags are spared (`Shape.blind_readOpen`).
-/

namespace BackupProfiles

variable {α β : Type} {c d : Positions} {name : String}

theorem cases_of_map_eq {ε : Type} {f : α → β} {x y : Except ε α} (h : x.map f = y.map f) :
    (∃ e, x = .error e ∧ y = .error e) ∨ ∃ a b, x = .ok a ∧ y = .ok b ∧ f a = f b := by
  rcases x with e | a <;> rcases y with e' | b <;> simp [Except.map] at h
  · exact Or.inl ⟨e, rfl, by rw [h]⟩
  · exact Or.inr ⟨a, b, rfl, rfl, h⟩

/-- A mismatch tells of a value no more than a string that is shown and tags, so hiding what stands
in the value makes no difference to it. -/
theorem Fault.unexpected_redact (h : c [] = false) (v : Value) (expected : String) :
    unexpected (v.redact c) expected = unexpected v expected := by
  cases v with
  | string s => rw [Value.redact_string_of_shown h]
  | _ => simp [unexpected, Appearance.of]

theorem Mismatch.ofVariants_redact (v : Value) (c : Positions) :
    ofVariants (v.redact c) = ofVariants v := by
  rw [ofVariants, ofVariants, Value.hasTag_redact]

namespace Reader

variable {r : Reader α} {hide : α → α}

/-- Hiding the strings at some positions first makes no difference to what is read once `hide` has
hidden its part, nor to why nothing is read. -/
def Blind (r : Reader α) (hide : α → α) (c : Positions) : Prop :=
  ∀ v : Value, (r (v.redact c)).map hide = (r v).map hide

namespace Blind

theorem of_eq (h : ∀ v : Value, r (v.redact c) = r v) : r.Blind hide c := fun v => by rw [h]

theorem none : r.Blind hide Positions.none := of_eq fun v => by rw [Value.redact_none]

theorem cases (h : r.Blind hide c) (v : Value) :
    (∃ f, r (v.redact c) = .error f ∧ r v = .error f) ∨
      ∃ a b, r (v.redact c) = .ok a ∧ r v = .ok b ∧ hide a = hide b :=
  cases_of_map_eq (h v)

theorem fault?_eq (h : r.Blind hide c) (v : Value) : r.fault? (v.redact c) = r.fault? v := by
  unfold fault?
  rcases h.cases v with ⟨f, hr, hv⟩ | ⟨a, b, hr, hv, -⟩ <;> rw [hr, hv]

theorem toOption (h : r.Blind hide c) (v : Value) :
    (r (v.redact c)).toOption.map hide = (r v).toOption.map hide := by
  rcases h.cases v with ⟨f, hr, hv⟩ | ⟨a, b, hr, hv, hab⟩ <;> rw [hr, hv]
  exact congrArg some hab

theorem optional (h : r.Blind hide c) : (Reader.optional r).Blind (Option.map hide) c := by
  have hsome : ∀ v : Value, v.kind ≠ .null → Reader.optional r v = (r v).map some := by
    intro v hv
    cases v with
    | null => exact absurd rfl hv
    | _ => rfl
  intro v
  by_cases hn : v.kind = .null
  · cases v with
    | null => rfl
    | _ => cases hn
  · rw [hsome v hn, hsome _ (by rwa [Value.kind_redact])]
    rcases h.cases v with ⟨f, hr, hv⟩ | ⟨a, b, hr, hv, hab⟩ <;> rw [hr, hv]
    exact congrArg (Except.ok ∘ some) hab

theorem entries (h : ∀ name, r.Blind hide (c.under (.key name))) : ∀ m : Mapping,
    (Reader.entries r (m.redact c)).map (List.map fun e => (e.1, hide e.2)) =
      (Reader.entries r m).map (List.map fun e => (e.1, hide e.2))
  | [] => rfl
  | (k, v) :: rest => by
    rw [Mapping.redact_cons, Reader.entries, Reader.entries]
    rcases Reader.text k with f | key
    · rfl
    rcases (h k.keyName).cases v with ⟨f, hr, hv⟩ | ⟨a, b, hr, hv, hab⟩
    · simp only [hr, hv]
      rfl
    · simp only [hr, hv]
      rcases cases_of_map_eq (entries h rest) with ⟨f, hr, hv⟩ | ⟨es, es', hr, hv, hes⟩
      · rw [hr, hv]
        rfl
      · rw [hr, hv]
        exact congrArg Except.ok (congrArg₂ List.cons (Prod.ext rfl hab) hes)

theorem table (hc : c [] = false) (h : ∀ name, r.Blind hide (c.under (.key name))) :
    (Reader.table r).Blind (Table.map hide) c := by
  intro v
  obtain ⟨d, hd, hnil, hkeys⟩ := v.untagged_redact c
  rw [Reader.table, Reader.table, hd]
  cases v.untagged with
  | mapping m =>
    have hm := entries (c := d) (fun name => by rw [hkeys]; exact h name) m
    simp only [Value.redact_mapping]
    rcases cases_of_map_eq hm with ⟨f, hr, hv⟩ | ⟨es, es', hr, hv, hes⟩ <;> rw [hr, hv]
    refine congrArg Except.ok ?_
    rw [Table.map_ofList, Table.map_ofList, hes]
  | null => rw [Value.redact_null]
  | _ => exact congrArg Except.error (Fault.unexpected_redact (hnil.trans hc) _ _)

end Blind

/-- Of a secret only whether it is empty comes through. -/
theorem blind_secret (c : Positions) : secret.Blind Secret.hidden c := by
  intro v
  cases v with
  | string s =>
    rw [Value.redact_string]
    by_cases hc : c [] = true
    · rw [if_pos hc]
      exact congrArg Except.ok (Secret.hidden_hidden ⟨s⟩)
    · rw [if_neg hc]
  | _ => simp [secret, Value.kind]

theorem text_redact (h : c [] = false) (v : Value) : text (v.redact c) = text v := by
  obtain ⟨d, hd, hnil, -⟩ := v.untagged_redact c
  rw [text, text, hd]
  cases v.untagged with
  | string s => rw [Value.redact_string_of_shown (hnil.trans h)]
  | _ => exact congrArg Except.error (Fault.unexpected_redact (hnil.trans h) _ _)

theorem switch_redact (h : c [] = false) (v : Value) : switch (v.redact c) = switch v := by
  obtain ⟨d, hd, hnil, -⟩ := v.untagged_redact c
  rw [switch, switch, hd]
  cases v.untagged with
  | bool b => rw [Value.redact_bool]
  | _ => exact congrArg Except.error (Fault.unexpected_redact (hnil.trans h) _ _)

end Reader

/-- Positions that spare every string that a flag can hold. -/
def Positions.SparesFlags (c : Positions) : Prop := c [] = false ∧ ∀ i, c [.item i] = false

theorem Positions.sparesFlags_none : none.SparesFlags := ⟨rfl, fun _ => rfl⟩

namespace FlagValue

theorem ofItem_redact : ∀ (v : Value) {c : Positions}, c [] = false →
    ofItem (v.redact c) = ofItem v
  | .string s, _, h => by rw [Value.redact_string_of_shown h]
  | .list items, _, _ => by rw [Value.redact_list, ofItem, ofItem]
  | .mapping m, _, _ => by rw [Value.redact_mapping, ofItem, ofItem]
  | .tagged tag content, c, h => by
    have hcontent : c.behindTag [] = false := h
    rw [Value.redact_tagged, ofItem, ofItem, ofItem_redact content hcontent]
  | .null, _, _ | .bool _, _, _ | .number _, _, _ => by simp

theorem mapM_ofItem_redact (h : ∀ i, c [.item i] = false) (items : List Value) (i : Nat) :
    (Value.redactItems c i items).mapM ofItem = items.mapM ofItem := by
  induction items generalizing i with
  | nil => rfl
  | cons v rest ih =>
    have hv : c.under (.item i) [] = false := h i
    rw [Value.redactItems, List.mapM_cons, List.mapM_cons, ofItem_redact v hv, ih]

theorem ofValue_redact : ∀ (v : Value) {c : Positions}, c.SparesFlags →
    ofValue (v.redact c) = ofValue v
  | .string s, _, h => by rw [Value.redact_string_of_shown h.1]
  | .list items, _, h => by rw [Value.redact_list, ofValue, ofValue, mapM_ofItem_redact h.2]
  | .mapping m, _, _ => by rw [Value.redact_mapping, ofValue, ofValue]
  | .tagged tag content, c, h => by
    have hcontent : c.behindTag.SparesFlags := ⟨h.1, fun _ => h.1⟩
    rw [Value.redact_tagged, ofValue, ofValue, ofValue_redact content hcontent]
  | .null, _, _ | .bool _, _, _ | .number _, _, _ => by simp

/-- Whether and why a value is refused as a flag does not depend on its strings. -/
theorem ofItem_redact_map_unit : ∀ (v : Value) (c : Positions),
    (ofItem (v.redact c)).map (fun _ => ()) = (ofItem v).map fun _ => ()
  | .string s, c => by rw [Value.redact_string]; rfl
  | .list items, c => by rw [Value.redact_list]; rfl
  | .mapping m, c => by rw [Value.redact_mapping]; rfl
  | .tagged tag content, c => by
    rw [Value.redact_tagged, ofItem, ofItem, ofItem_redact_map_unit content]
  | .null, _ | .bool _, _ | .number _, _ => by simp

theorem mapM_ofItem_redact_map_unit (c : Positions) (items : List Value) (i : Nat) :
    ((Value.redactItems c i items).mapM ofItem).map (fun _ => ()) =
      (items.mapM ofItem).map fun _ => () := by
  induction items generalizing i with
  | nil => rfl
  | cons v rest ih =>
    rw [Value.redactItems, List.mapM_cons, List.mapM_cons]
    rcases cases_of_map_eq (ofItem_redact_map_unit v (c.under (.item i)))
      with ⟨why, hr, hv⟩ | ⟨a, b, hr, hv, -⟩
    · rw [hr, hv]
      rfl
    · rw [hr, hv]
      rcases cases_of_map_eq (ih (i + 1)) with ⟨why, hr, hv⟩ | ⟨l, m, hr, hv, -⟩ <;>
        (rw [hr, hv]; rfl)

theorem ofValue_redact_map_unit : ∀ (v : Value) (c : Positions),
    (ofValue (v.redact c)).map (fun _ => ()) = (ofValue v).map fun _ => ()
  | .string s, c => by rw [Value.redact_string]; rfl
  | .list items, c => by
    rw [Value.redact_list, ofValue, ofValue]
    rcases cases_of_map_eq (mapM_ofItem_redact_map_unit c items 0)
      with ⟨why, hr, hv⟩ | ⟨l, m, hr, hv, -⟩ <;> rw [hr, hv]
    rfl
  | .mapping m, c => by rw [Value.redact_mapping]; rfl
  | .tagged tag content, c => by
    rw [Value.redact_tagged, ofValue, ofValue, ofValue_redact_map_unit content]
  | .null, _ | .bool _, _ | .number _, _ => by simp

end FlagValue

namespace Entries

variable {r : Reader α} {hide : α → α}

def redact (c : Positions) (es : Entries) : Entries :=
  es.map fun e => (e.1, e.2.redact (c.under (.key e.1)))

theorem get?_redact (c : Positions) (es : Entries) (name : String) :
    (es.redact c).get? name = (es.get? name).map (Value.redact (c.under (.key name))) :=
  get?_rewrite (fun name v => Value.redact (c.under (.key name)) v) es name

theorem goesByTexts_redact (c : Positions) :
    Mapping.GoesByTexts (fun key v => v.redact (c.under (.key key.keyName)))
      (fun name v => v.redact (c.under (.key name))) := fun key name hk => by
  simp only [Value.keyName_of_untagged hk]

theorem ofMapping_redact (c : Positions) (m : Mapping) :
    ofMapping (m.redact c) = (ofMapping m).redact c :=
  ofMapping_mapValues (goesByTexts_redact c) m

/-- A field that is read blindly. -/
theorem read_redact (h : r.Blind hide (c.under (.key name))) (es : Entries) (default : α) :
    hide ((es.redact c).read name r default) = hide (es.read name r default) := by
  unfold read
  rw [get?_redact]
  rcases es.get? name with _ | v
  · rfl
  · simp only [Option.map_some]
    rcases h.cases v with ⟨f, hr, hv⟩ | ⟨a, b, hr, hv, hab⟩ <;> rw [hr, hv]
    exact hab

/-- A field behind which nothing is hidden. -/
theorem read_redact_of_none (h : c.under (.key name) = Positions.none) (es : Entries)
    (r : Reader α) (default : α) : (es.redact c).read name r default = es.read name r default :=
  have hblind : r.Blind id (c.under (.key name)) := h ▸ Reader.Blind.none
  read_redact hblind es default

end Entries

/-- Checks that see nothing of what is hidden. -/
def FieldChecks.Blind (g : FieldChecks) (c : Positions) : Prop :=
  ∀ e ∈ g, ∀ v : Value, e.2 (v.redact (c.under (.key e.1))) = e.2 v

namespace Shape

variable {s : Shape} {own g : FieldChecks}

/-- The flags of the section are spared. -/
def FlagsSpared (s : Shape) (c : Positions) : Prop :=
  ∀ name ∉ s.fieldNames, (c.under (.key name)).SparesFlags

theorem keepsFlags_redact (ho : s.FlagsSpared c) :
    s.KeepsFlags fun name v => v.redact (c.under (.key name)) := fun name hn v =>
  FlagValue.ofValue_redact v (ho name hn)

theorem spares_redact (hg : ∀ g ∈ s.own :: s.groups, g.Blind c) (ho : s.FlagsSpared c) :
    s.Spares fun name v => v.redact (c.under (.key name)) where
  checks := hg
  flags := keepsFlags_redact ho
  tags _ v := Value.hasTag_redact v _

theorem flags_redact (ho : s.FlagsSpared c) (es : Entries) :
    s.flags (es.redact c) = s.flags es :=
  flags_rewrite (keepsFlags_redact ho) es

theorem fault?_redact (hg : ∀ g ∈ s.own :: s.groups, g.Blind c) (ho : s.FlagsSpared c)
    (m : Mapping) : s.fault? (m.redact c) = s.fault? m :=
  fault?_mapValues (Entries.goesByTexts_redact c) (spares_redact hg ho) m

theorem blind_readOpen {build : Entries → α} {hide : α → α} (hc : c [] = false)
    (hg : ∀ g ∈ s.own :: s.groups, g.Blind c) (ho : s.FlagsSpared c)
    (hb : ∀ es, hide (build (Entries.redact c es)) = hide (build es)) :
    (s.readOpen build).Blind hide c := by
  intro v
  obtain ⟨d, hd, hnil, hkeys⟩ := v.untagged_redact c
  rw [readOpen, readOpen, hd]
  cases v.untagged with
  | mapping m =>
    simp only [Value.redact_mapping]
    rw [Mapping.redact_congr hkeys, fault?_redact hg ho, Entries.ofMapping_redact]
    rcases s.fault? m with _ | f
    · exact congrArg Except.ok (hb _)
    · rfl
  | null => rw [Value.redact_null]
  | _ => exact congrArg Except.error (Fault.unexpected_redact (hnil.trans hc) _ _)

end Shape

end BackupProfiles
