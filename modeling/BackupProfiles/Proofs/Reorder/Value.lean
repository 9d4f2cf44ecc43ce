import BackupProfiles.Proofs.Value.Plain
import Mathlib.Data.List.Perm.Basic

/-!
# Values that differ in the order of keys

A value reorders another one if it comes from it by changing the order of entries in mappings, at
any depth. Lists keep their order. Where no two keys are the same, mappings of texts reorder each other
exactly if every text stands for values that do (`Reorders.get?`, `Reorders.of_get?`), so it is
look-ups that the merge and the readers are compared by.
-/

namespace BackupProfiles

section Relations

variable {α β γ δ : Type} {r : α → β → Prop} {x : Option α} {y : Option β}

theorem rel_cases (h : Option.Rel r x y) :
    (x = none ∧ y = none) ∨ ∃ a b, x = some a ∧ y = some b ∧ r a b := by
  cases h with
  | none => exact Or.inl ⟨rfl, rfl⟩
  | some h => exact Or.inr ⟨_, _, rfl, rfl, h⟩

theorem rel_map {q : γ → δ → Prop} {f : α → γ} {g : β → δ} (h : Option.Rel r x y)
    (hr : ∀ a b, r a b → q (f a) (g b)) : Option.Rel q (x.map f) (y.map g) := by
  cases h with
  | none => exact .none
  | some h => exact .some (hr _ _ h)

theorem rel_trans {γ : Type} {r : γ → γ → Prop} {x y z : Option γ}
    (hr : ∀ {a b c}, r a b → r b c → r a c) (h : Option.Rel r x y) (g : Option.Rel r y z) :
    Option.Rel r x z := by
  cases h with
  | none => exact g
  | some h =>
    cases g with
    | some g => exact .some (hr h g)

end Relations

/-- The entries of the first mapping in the order that its keys have in the second one. -/
def Mapping.inOrderOf (m n : Mapping) : Mapping := n.map fun e => (e.1, (m.get? e.1).getD .null)

theorem Mapping.perm_inOrderOf {m n : Mapping} (hm : m.Distinct) (hn : n.keys.Nodup)
    (h : ∀ key, key ∈ m.keys ↔ key ∈ n.keys) : m.Perm (m.inOrderOf n) := by
  have hkeys : Mapping.keys (m.inOrderOf n) = n.keys := by
    simp [inOrderOf, keys, Function.comp_def]
  refine (List.perm_ext_iff_of_nodup (.of_map _ hm.nodup) (.of_map Prod.fst
    (show (Mapping.keys (m.inOrderOf n)).Nodup from hkeys ▸ hn))).2 fun e => ?_
  constructor
  · intro he
    obtain ⟨f, hf, hkey⟩ := List.mem_map.1 ((h e.1).1 (List.mem_map_of_mem he))
    exact List.mem_map.2 ⟨f, hf, by rw [hkey, get?_of_mem hm he]; rfl⟩
  · intro he
    obtain ⟨f, hf, rfl⟩ := List.mem_map.1 he
    obtain ⟨e, he, hkey⟩ := List.mem_map.1 ((h f.1).2 (List.mem_map_of_mem hf))
    rw [← hkey, get?_of_mem hm he]
    exact he

namespace Value

/-- The second value is the first one with the keys of some mappings in another order. -/
inductive Reorders : Value → Value → Prop where
  | refl (v : Value) : Reorders v v
  | trans {u v w : Value} (h : Reorders u v) (g : Reorders v w) : Reorders u w
  | keys {m n : Mapping} (h : m.Perm n) : Reorders (.mapping m) (.mapping n)
  | entry (front back : Mapping) (key : Value) {v w : Value} (h : Reorders v w) :
    Reorders (.mapping (front ++ (key, v) :: back)) (.mapping (front ++ (key, w) :: back))
  | item (front back : List Value) {v w : Value} (h : Reorders v w) :
    Reorders (.list (front ++ v :: back)) (.list (front ++ w :: back))
  | tagged (tag : String) {v w : Value} (h : Reorders v w) :
    Reorders (.tagged tag v) (.tagged tag w)

/-- Entries with one key whose values differ in the order of keys. -/
def SameEntry (e f : Value × Value) : Prop := e.1 = f.1 ∧ Reorders e.2 f.2

/-- What a value that reorders another one looks like. -/
def Alike : Value → Value → Prop
  | .list xs, w => ∃ ys, w = .list ys ∧ List.Forall₂ Reorders xs ys
  | .mapping m, w => ∃ n, w = .mapping n ∧ Relation.Comp (List.Forall₂ SameEntry) List.Perm m n
  | .tagged tag v, w => ∃ content, w = .tagged tag content ∧ Reorders v content
  | v, w => w = v

theorem SameEntry.refl (e : Value × Value) : SameEntry e e := ⟨rfl, .refl e.2⟩

theorem SameEntry.trans {e f g : Value × Value} (h : SameEntry e f) (h' : SameEntry f g) :
    SameEntry e g :=
  ⟨h.1.trans h'.1, h.2.trans h'.2⟩

theorem Alike.refl : ∀ v : Value, Alike v v
  | .list xs => ⟨xs, rfl, List.forall₂_same.2 fun v _ => .refl v⟩
  | .mapping m => ⟨m, rfl, m, List.forall₂_same.2 fun e _ => .refl e, .refl m⟩
  | .tagged _ v => ⟨v, rfl, .refl v⟩
  | .null | .bool _ | .number _ | .string _ => rfl

/-- Related one after the other where the lists have one order. -/
theorem forall₂_trans {α : Type} {r : α → α → Prop} (hr : ∀ a b c, r a b → r b c → r a c) :
    ∀ {xs ys zs : List α}, List.Forall₂ r xs ys → List.Forall₂ r ys zs → List.Forall₂ r xs zs
  | _, _, _, .nil, .nil => .nil
  | _, _, _, .cons h hs, .cons g gs => .cons (hr _ _ _ h g) (forall₂_trans hr hs gs)

/-- One element is replaced. -/
theorem forall₂_replaced {α : Type} {r : α → α → Prop} (hr : ∀ a, r a a) {a b : α} (h : r a b)
    (front back : List α) : List.Forall₂ r (front ++ a :: back) (front ++ b :: back) :=
  List.rel_append (List.forall₂_same.2 fun a _ => hr a)
    (.cons h (List.forall₂_same.2 fun a _ => hr a))

theorem Alike.trans : ∀ {u v w : Value}, Alike u v → Alike v w → Alike u w
  | .list _, _, _, ⟨_, rfl, h⟩, ⟨zs, rfl, g⟩ =>
    ⟨zs, rfl, forall₂_trans (r := Reorders) (fun _ _ _ => .trans) h g⟩
  | .mapping _, _, _, ⟨_, rfl, _, h, hp⟩, ⟨p, rfl, _, g, gp⟩ => by
    -- entries that change places before their values change can do so after it
    obtain ⟨k, hk, hkp⟩ := List.perm_comp_forall₂ hp g
    exact ⟨p, rfl, k, forall₂_trans (r := SameEntry) (fun _ _ _ => .trans) h hk, hkp.trans gp⟩
  | .tagged _ _, _, _, ⟨_, rfl, h⟩, ⟨w, rfl, g⟩ => ⟨w, rfl, h.trans g⟩
  | .null, _, _, rfl, g | .bool _, _, _, rfl, g | .number _, _, _, rfl, g
  | .string _, _, _, rfl, g => g

namespace Reorders

variable {v w : Value} {m n : Mapping} {key : Value}

theorem alike (h : Reorders v w) : Alike v w := by
  induction h with
  | refl v => exact .refl v
  | trans _ _ ih ih' => exact ih.trans ih'
  | keys h => exact ⟨_, rfl, _, List.forall₂_same.2 fun e _ => .refl e, h⟩
  | entry front back key h _ =>
    exact ⟨_, rfl, _, forall₂_replaced .refl ⟨rfl, h⟩ front back, .refl _⟩
  | item front back h _ => exact ⟨_, rfl, forall₂_replaced .refl h front back⟩
  | tagged tag h _ => exact ⟨_, rfl, h⟩

theorem symm (h : Reorders v w) : Reorders w v := by
  induction h with
  | refl v => exact .refl v
  | trans _ _ ih ih' => exact ih'.trans ih
  | keys h => exact .keys h.symm
  | entry front back key _ ih => exact .entry front back key ih
  | item front back _ ih => exact .item front back ih
  | tagged tag _ ih => exact .tagged tag ih

/-- Only values with parts can differ. -/
theorem cases (h : Reorders v w) : v = w ∨
    (∃ xs ys, v = .list xs ∧ w = .list ys ∧ List.Forall₂ Reorders xs ys) ∨
    (∃ m n, v = .mapping m ∧ w = .mapping n) ∨
    ∃ tag a b, v = .tagged tag a ∧ w = .tagged tag b ∧ Reorders a b := by
  have ha := h.alike
  cases v with
  | list xs =>
    obtain ⟨ys, rfl, hitems⟩ := ha
    exact Or.inr (Or.inl ⟨xs, ys, rfl, rfl, hitems⟩)
  | mapping m =>
    obtain ⟨n, rfl, -⟩ := ha
    exact Or.inr (Or.inr (Or.inl ⟨m, n, rfl, rfl⟩))
  | tagged tag v =>
    obtain ⟨content, rfl, hcontent⟩ := ha
    exact Or.inr (Or.inr (Or.inr ⟨tag, v, content, rfl, rfl, hcontent⟩))
  | _ => exact Or.inl (Eq.symm ha)

theorem kind_eq (h : Reorders v w) : v.kind = w.kind := by
  rcases h.cases with rfl | ⟨xs, ys, rfl, rfl, -⟩ | ⟨m, n, rfl, rfl⟩ | ⟨tag, a, b, rfl, rfl, -⟩
  all_goals rfl

theorem rel_refl (v? : Option Value) : Option.Rel Reorders v? v? := by
  cases v? with
  | none => exact .none
  | some v => exact .some (.refl v)

theorem untagged : ∀ (v : Value) {w : Value}, Reorders v w → Reorders v.untagged w.untagged
  | .tagged _ v, _, h => by
    obtain ⟨content, rfl, hv⟩ := h.alike
    have hinner := untagged v hv
    exact hinner
  | .null, _, h | .bool _, _, h | .number _, _, h | .string _, _, h | .list _, _, h
  | .mapping _, _, h => by
    rcases h.cases with rfl | ⟨xs, ys, hv, rfl, -⟩ | ⟨m, n, hv, rfl⟩ | ⟨tag, a, b, hv, -⟩
    · exact .refl _
    · exact h
    · exact h
    · cases hv

theorem hasTag_eq (h : Reorders v w) : v.hasTag = w.hasTag := by
  have hitems : ∀ items : List Value, anyHasTag items = items.any hasTag := by
    intro items
    induction items with
    | nil => rfl
    | cons v rest ih => rw [anyHasTag, List.any_cons, ih]
  have hentries : ∀ m : Mapping, anyEntryHasTag m = m.any fun e => e.1.hasTag || e.2.hasTag := by
    intro m
    induction m with
    | nil => rfl
    | cons e rest ih => rw [anyEntryHasTag, List.any_cons, ih]
  induction h with
  | refl v => rfl
  | trans _ _ ih ih' => exact ih.trans ih'
  | keys h => simp only [hasTag, hentries, h.any_eq]
  | entry front back key _ ih =>
    simp only [hasTag, hentries, List.any_append, List.any_cons, ih]
  | item front back _ ih => simp only [hasTag, hitems, List.any_append, List.any_cons, ih]
  | tagged tag _ _ => rfl

section Building

theorem list {xs ys : List Value} (h : List.Forall₂ Reorders xs ys) :
    Reorders (.list xs) (.list ys) := by
  have hfront : ∀ front : List Value, Reorders (.list (front ++ xs)) (.list (front ++ ys)) := by
    induction h with
    | nil => exact fun front => .refl _
    | @cons x y xs ys h _ ih =>
      intro front
      have hrest := ih (front ++ [y])
      rw [List.append_assoc, List.append_assoc] at hrest
      exact (item front xs h).trans hrest
  exact hfront []

theorem entries (h : List.Forall₂ SameEntry m n) : Reorders (.mapping m) (.mapping n) := by
  have hfront : ∀ front : Mapping, Reorders (.mapping (front ++ m)) (.mapping (front ++ n)) := by
    induction h with
    | nil => exact fun front => .refl _
    | @cons e f m n h _ ih =>
      intro front
      obtain ⟨key, v⟩ := e
      obtain ⟨_, w⟩ := f
      obtain ⟨rfl, h⟩ := h
      have hrest := ih (front ++ [(key, w)])
      rw [List.append_assoc, List.append_assoc] at hrest
      exact (entry front m key h).trans hrest
  exact hfront []

end Building

section Mappings

/-- Entries keep their keys while they change places. -/
theorem entries_perm (h : Reorders (.mapping m) (.mapping n)) :
    Relation.Comp (List.Forall₂ SameEntry) List.Perm m n := by
  obtain ⟨k, hk, hperm⟩ := h.alike
  rwa [Value.mapping.inj hk]

theorem keys_eq (h : List.Forall₂ SameEntry m n) : m.keys = n.keys := by
  induction h with
  | nil => rfl
  | cons hsame _ ih => rw [Mapping.keys_cons, Mapping.keys_cons, hsame.1, ih]

theorem keys_perm (h : Reorders (.mapping m) (.mapping n)) : m.keys.Perm n.keys := by
  obtain ⟨k, hk, hperm⟩ := h.entries_perm
  rw [keys_eq hk]
  exact Mapping.keys_perm hperm

/-- Every entry comes from one with its key. -/
theorem exists_mem (h : Reorders (.mapping m) (.mapping n)) {e : Value × Value} (he : e ∈ n) :
    ∃ a ∈ m, SameEntry a e := by
  obtain ⟨k, hk, hperm⟩ := h.entries_perm
  have hmem := hperm.mem_iff.2 he
  clear h hperm he
  induction hk with
  | nil => cases hmem
  | cons hsame _ ih =>
    rcases List.mem_cons.1 hmem with rfl | hmem
    · exact ⟨_, List.mem_cons_self, hsame⟩
    · obtain ⟨a, ha, hae⟩ := ih hmem
      exact ⟨a, List.mem_cons_of_mem _ ha, hae⟩

theorem distinct (h : Reorders (.mapping m) (.mapping n)) (hm : m.Distinct) : n.Distinct :=
  h.keys_perm.pairwise hm fun {j k} hjk => by rwa [sameKey_comm]

theorem get? (hm : m.Distinct) (h : Reorders (.mapping m) (.mapping n)) (key : Value) :
    Option.Rel Reorders (m.get? key) (n.get? key) := by
  rcases hn : n.get? key with _ | w
  · have hnone : m.get? key = none := by
      rw [Mapping.get?_eq_none_iff] at hn ⊢
      exact fun k hk => hn k (h.keys_perm.mem_iff.1 hk)
    rw [hnone]
    exact .none
  · obtain ⟨k, hk, hmem⟩ := Mapping.exists_of_get? hn
    obtain ⟨⟨_, v⟩, ha, rfl, hvw⟩ := h.exists_mem hmem
    rw [← Mapping.get?_congr hk, Mapping.get?_of_mem hm ha]
    exact .some hvw

theorem get?_cases (hm : m.Distinct) (h : Reorders (.mapping m) (.mapping n)) (key : Value) :
    (m.get? key = none ∧ n.get? key = none) ∨
      ∃ v w, m.get? key = some v ∧ n.get? key = some w ∧ Reorders v w :=
  rel_cases (h.get? hm key)

theorem exists_get? (hm : m.Distinct) (h : Reorders (.mapping m) (.mapping n))
    (hv : m.get? key = some v) : ∃ w, n.get? key = some w ∧ Reorders v w := by
  rcases h.get?_cases hm key with ⟨hnone, -⟩ | ⟨v', w, hsome, hw, hvw⟩
  · rw [hnone] at hv
    cases hv
  · rw [hsome] at hv
    cases hv
    exact ⟨w, hw, hvw⟩

/-- Mappings of texts without double keys whose look-ups differ in the order of keys. -/
theorem of_get? (hm : m.Distinct) (hn : n.Distinct) (hp : (Value.mapping m).Plain)
    (hq : (Value.mapping n).Plain)
    (h : ∀ s : String, Option.Rel Reorders (m.get? (.string s)) (n.get? (.string s))) :
    Reorders (.mapping m) (.mapping n) := by
  have htext : ∀ s : String, .string s ∈ m.keys ↔ .string s ∈ n.keys := fun s => by
    rw [Mapping.mem_keys_iff, Mapping.mem_keys_iff]
    rcases rel_cases (h s) with ⟨hv, hw⟩ | ⟨v, w, hv, hw, -⟩ <;> simp [hv, hw]
  have hmem : ∀ key, key ∈ m.keys ↔ key ∈ n.keys := fun key => by
    constructor
    · intro hk
      obtain ⟨s, rfl⟩ := hp.key_of_mem hk
      exact (htext s).1 hk
    · intro hk
      obtain ⟨s, rfl⟩ := hq.key_of_mem hk
      exact (htext s).2 hk
  have hsame : List.Forall₂ SameEntry (m.inOrderOf n) n := by
    refine List.forall₂_map_left_iff.2 (List.forall₂_same.2 fun e he => ⟨rfl, ?_⟩)
    obtain ⟨s, hs⟩ := hq.key_eq he
    have hrel := h s
    rw [← hs, Mapping.get?_of_mem hn he] at hrel
    rcases rel_cases hrel with ⟨-, hw⟩ | ⟨v, w, hv, hw, hvw⟩
    · cases hw
    · cases hw
      rwa [hv]
  exact (keys (Mapping.perm_inOrderOf hm hn.nodup hmem)).trans (entries hsame)

end Mappings

section Preserved

theorem mapping?_eq_none (h : Reorders v w) (hv : v.mapping? = none) : w.mapping? = none := by
  cases w with
  | mapping n =>
    obtain ⟨m, rfl, -⟩ := h.symm.alike
    cases hv
  | _ => rfl

theorem tidy (hv : v.Tidy) (h : Reorders v w) : w.Tidy := by
  induction hv generalizing w with
  | @mapping m keys _ ih =>
    obtain ⟨n, rfl, -⟩ := h.alike
    refine .mapping (h.distinct keys) fun e he => ?_
    obtain ⟨a, ha, hae⟩ := h.exists_mem he
    exact ih a ha hae.2
  | leaf hv => exact .leaf (h.mapping?_eq_none hv)

theorem plain (hv : v.Plain) (h : Reorders v w) : w.Plain := by
  induction hv generalizing w with
  | @mapping m keys _ ih =>
    obtain ⟨n, rfl, -⟩ := h.alike
    refine .mapping (fun e he => ?_) fun e he => ?_
    · obtain ⟨a, ha, hae⟩ := h.exists_mem he
      rw [← hae.1]
      exact keys a ha
    · obtain ⟨a, ha, hae⟩ := h.exists_mem he
      exact ih a ha hae.2
  | @leaf v hv hu =>
    refine .leaf (h.mapping?_eq_none hv) ?_
    cases w with
    | tagged tag content =>
      obtain ⟨v, rfl, -⟩ := h.symm.alike
      exact absurd hu (untagged_ne_tagged v)
    | _ => rfl

end Preserved

end Reorders

end Value

end BackupProfiles
