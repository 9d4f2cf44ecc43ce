import BackupProfiles.Proofs.Reading.Accept
import BackupProfiles.Proofs.Reading.Record
import BackupProfiles.Proofs.Reorder.Value
import BackupProfiles.Section.Retention

/-!
# Reading reordered values

A reader is steady if the order of keys makes no difference to what it comes to, and indifferent if
it makes none to what is read, though it may to the fault that is found first. Everything that is no
section is read steadily, calls and headers included: their fields are looked up by name. An open
section is read indifferently if its fields are (`Shape.indifferent_readOpen`).
-/

namespace BackupProfiles

open Value

variable {α β σ : Type} {v w : Value}

section Lists

/-- Items that come to the same, one by one. -/
theorem mapM_forall₂ {M : Type → Type} [Monad M] [LawfulMonad M] {f : α → M β}
    {r : α → α → Prop} (hf : ∀ a b, r a b → f a = f b) {xs ys : List α}
    (h : List.Forall₂ r xs ys) : xs.mapM f = ys.mapM f := by
  induction h with
  | nil => rfl
  | cons h _ ih => rw [List.mapM_cons, List.mapM_cons, hf _ _ h, ih]

/-- Items that come to related results, one by one. -/
theorem mapM_rel {f : α → Option β} {r : α → α → Prop} {q : β → β → Prop}
    (hf : ∀ a b, r a b → Option.Rel q (f a) (f b)) {xs ys : List α} (h : List.Forall₂ r xs ys) :
    Option.Rel (List.Forall₂ q) (xs.mapM f) (ys.mapM f) := by
  induction h with
  | nil => exact .some .nil
  | cons h _ ih =>
    rw [option_mapM_cons, option_mapM_cons]
    rcases rel_cases (hf _ _ h) with ⟨ha, hb⟩ | ⟨a, b, ha, hb, hab⟩
    · rw [ha, hb]
      exact .none
    · rw [ha, hb]
      exact rel_map ih fun _ _ hrest => .cons hab hrest

/-- Items in another order come to results in another order. -/
theorem mapM_perm (f : α → Option β) {xs ys : List α} (h : xs.Perm ys) :
    Option.Rel List.Perm (xs.mapM f) (ys.mapM f) := by
  induction h with
  | nil => exact .some (.refl [])
  | cons a _ ih =>
    rw [option_mapM_cons, option_mapM_cons]
    rcases f a with _ | b
    · exact .none
    · exact rel_map ih fun _ _ hrest => hrest.cons b
  | swap a b rest =>
    simp only [option_mapM_cons]
    rcases f a with _ | c <;> rcases f b with _ | d <;> rcases rest.mapM f with _ | cs
    all_goals first | exact .none | exact .some (.swap _ _ cs)
  | trans _ _ ih ih' => exact rel_trans List.Perm.trans ih ih'

end Lists

namespace FlagValue

theorem ofItem_reorders : ∀ (v : Value) {w : Value}, Reorders v w → ofItem v = ofItem w
  | .tagged _ v, _, h => by
    obtain ⟨content, rfl, hv⟩ := h.alike
    rw [ofItem, ofItem, ofItem_reorders v hv]
  | .null, _, h | .bool _, _, h | .number _, _, h | .string _, _, h | .list _, _, h
  | .mapping _, _, h => by
    rcases h.cases with rfl | ⟨xs, ys, hv, rfl, -⟩ | ⟨m, n, hv, rfl⟩ | ⟨tag, a, b, hv, -⟩
    · rfl
    all_goals cases hv <;> rfl

theorem ofValue_reorders : ∀ (v : Value) {w : Value}, Reorders v w → ofValue v = ofValue w
  | .tagged _ v, _, h => by
    obtain ⟨content, rfl, hv⟩ := h.alike
    rw [ofValue, ofValue, ofValue_reorders v hv]
  | .list xs, _, h => by
    obtain ⟨ys, rfl, hitems⟩ := h.alike
    rw [ofValue, ofValue, mapM_forall₂ (fun v _ => ofItem_reorders v) hitems]
  | .null, _, h | .bool _, _, h | .number _, _, h | .string _, _, h | .mapping _, _, h => by
    rcases h.cases with rfl | ⟨xs, ys, hv, rfl, -⟩ | ⟨m, n, hv, rfl⟩ | ⟨tag, a, b, hv, -⟩
    · rfl
    all_goals cases hv <;> rfl

end FlagValue

namespace Reader

variable {r : Reader α}

/-- The order of keys makes no difference, faults included. -/
def Steady (r : Reader α) : Prop := ∀ ⦃v w : Value⦄, Reorders v w → r v = r w

/-- The order of keys makes no difference to what is read from a value of a body. -/
def Indifferent (r : Reader α) : Prop :=
  ∀ ⦃v w : Value⦄, v.Plain → v.Tidy → Reorders v w → (r v).toOption = (r w).toOption

theorem Steady.indifferent (h : r.Steady) : r.Indifferent :=
  fun _ _ _ _ hvw => congrArg Except.toOption (h hvw)

/-- Readers that look into nothing but lists. -/
theorem Steady.of_parts
    (hl : ∀ {xs ys}, List.Forall₂ Reorders xs ys → r (.list xs) = r (.list ys))
    (hm : ∀ {m n}, Reorders (.mapping m) (.mapping n) → r (.mapping m) = r (.mapping n))
    (ht : ∀ tag v w, r (.tagged tag v) = r (.tagged tag w)) : r.Steady := by
  intro v w h
  rcases h.cases with rfl | ⟨xs, ys, rfl, rfl, hitems⟩ | ⟨m, n, rfl, rfl⟩ |
    ⟨tag, a, b, rfl, rfl, -⟩
  · rfl
  · exact hl hitems
  · exact hm h
  · exact ht tag a b

theorem optional_of_ne_null (r : Reader α) (h : v.kind ≠ .null) :
    (Reader.optional r v).toOption = (r v).toOption.map some := by
  cases v with
  | null => exact absurd rfl h
  | _ =>
    show ((r _).map some).toOption = _
    rcases r _ with f | a <;> rfl

theorem Indifferent.optional (h : r.Indifferent) : (Reader.optional r).Indifferent := by
  intro v w hp ht hvw
  by_cases hn : v.kind = .null
  · rcases hvw.cases with rfl | ⟨xs, ys, rfl, -⟩ | ⟨m, n, rfl, -⟩ | ⟨tag, a, b, rfl, -⟩
    · rfl
    all_goals cases hn
  · rw [optional_of_ne_null r hn, optional_of_ne_null r (hvw.kind_eq ▸ hn), h hp ht hvw]

theorem steady_text : text.Steady := by
  intro v w h
  unfold text
  rcases (h.untagged v).cases with heq | ⟨xs, ys, hv, hw, -⟩ | ⟨m, n, hv, hw⟩ |
    ⟨tag, a, b, hv, hw, -⟩
  · rw [heq]
  all_goals
    rw [hv, hw]
    rfl

theorem steady_switch : switch.Steady := by
  intro v w h
  unfold switch
  rcases (h.untagged v).cases with heq | ⟨xs, ys, hv, hw, -⟩ | ⟨m, n, hv, hw⟩ |
    ⟨tag, a, b, hv, hw, -⟩
  · rw [heq]
  all_goals
    rw [hv, hw]
    rfl

theorem ofVariants_reorders (h : Reorders v w) : Mismatch.ofVariants v = Mismatch.ofVariants w := by
  rw [Mismatch.ofVariants, Mismatch.ofVariants, h.hasTag_eq]

theorem allTexts?_reorders {xs ys : List Value} (h : List.Forall₂ Reorders xs ys) :
    allTexts? xs = allTexts? ys := by
  induction h with
  | nil => rfl
  | @cons x y xs ys h _ ih =>
    rcases h.cases with rfl | ⟨_, _, rfl, rfl, -⟩ | ⟨m, n, rfl, rfl⟩ | ⟨tag, a, b, rfl, rfl, -⟩
    · cases x <;> simp [allTexts?, ih]
    all_goals rfl

theorem steady_texts : texts.Steady := by
  refine Steady.of_parts (r := texts) (fun h => ?_) (fun h => ?_) fun _ _ _ => rfl
  · rw [texts, texts, allTexts?_reorders h, ofVariants_reorders (.list h)]
  · exact congrArg (fun why => Except.error (Fault.mismatch why)) (ofVariants_reorders h)

theorem steady_secret : secret.Steady :=
  Steady.of_parts (fun _ => rfl) (fun _ => rfl) fun _ _ _ => rfl

theorem steady_verbosity : verbosity.Steady :=
  Steady.of_parts (fun _ => rfl) (fun _ => rfl) fun _ _ _ => rfl

theorem steady_duration : duration.Steady :=
  Steady.of_parts (fun _ => rfl) (fun _ => rfl) fun _ _ _ => rfl

theorem steady_choice : Steady Choice.read := by
  have hitem : Steady Choice.readItem :=
    Steady.of_parts (fun _ => rfl) (fun _ => rfl) fun _ _ _ => rfl
  refine Steady.of_parts (r := Choice.read) (fun {xs ys} h => ?_) (fun _ => rfl)
    fun _ _ _ => rfl
  show (xs.mapM Choice.readItem).map _ = (ys.mapM Choice.readItem).map _
  rw [mapM_forall₂ (fun _ _ hvw => hitem hvw) h]

end Reader

section Records

/-- Values of one field that differ in the order of keys. -/
def SameField (e f : String × Value) : Prop := e.1 = f.1 ∧ Reorders e.2 f.2

/-- Every field stands for values that differ in the order of keys, or for none. -/
def Entries.SameFields (es other : Entries) : Prop :=
  ∀ name, Option.Rel Reorders (es.get? name) (other.get? name)

variable {es other : Entries} {m n : Mapping} {names : List String}

theorem sameFields_of_forall₂ (h : List.Forall₂ SameField es other) : es.SameFields other := by
  intro name
  rw [Entries.get?_eq, Entries.get?_eq]
  induction h with
  | nil => exact .none
  | cons h _ ih =>
    rw [entryFor?_cons, entryFor?_cons, h.1]
    split
    · exact .some h.2
    · exact ih

theorem sameFields_of_perm (hn : (es.map (·.1)).Nodup) (h : es.Perm other) :
    es.SameFields other := by
  intro name
  rw [Entries.get?_eq, Entries.get?_eq, entryFor?_perm hn h]
  exact Reorders.rel_refl _

theorem names_eq_of_forall₂ (h : List.Forall₂ SameField es other) :
    es.map (·.1) = other.map (·.1) := by
  induction h with
  | nil => rfl
  | cons h _ ih => rw [List.map_cons, List.map_cons, h.1, ih]

theorem keyed?_forall₂ (names : List String) (h : List.Forall₂ SameEntry m n) :
    Option.Rel (List.Forall₂ SameField) (keyed? names m) (keyed? names n) := by
  refine mapM_rel (fun e f hef => ?_) h
  rw [hef.1]
  rcases fieldOfKey? names f.1 with _ | s
  · exact .none
  · exact .some ⟨rfl, hef.2⟩

variable {build? : Entries → Option σ}

theorem readRecord?_forall₂
    (hb : ∀ {es other : Entries}, es.SameFields other → build? es = build? other)
    (h : List.Forall₂ SameEntry m n) :
    readRecord? names build? (.mapping m) = readRecord? names build? (.mapping n) := by
  rw [readRecord?_mapping, readRecord?_mapping]
  rcases rel_cases (keyed?_forall₂ names h) with ⟨hm, hn⟩ | ⟨es, other, hm, hn, hes⟩
  · rw [hm, hn]
  · have hfields : List.Forall₂ SameField (es.filter fun e => names.contains e.1)
        (other.filter fun e => names.contains e.1) :=
      List.rel_filter (fun e f hef => by simp only [hef.1]) hes
    rw [hm, hn, Option.bind_some, Option.bind_some, names_eq_of_forall₂ hfields,
      hb (sameFields_of_forall₂ hfields)]

theorem readRecord?_perm
    (hb : ∀ {es other : Entries}, es.SameFields other → build? es = build? other)
    (h : m.Perm n) :
    readRecord? names build? (.mapping m) = readRecord? names build? (.mapping n) := by
  rw [readRecord?_mapping, readRecord?_mapping]
  have hkeyed : Option.Rel List.Perm (keyed? names m) (keyed? names n) := mapM_perm _ h
  rcases rel_cases hkeyed with ⟨hm, hn⟩ | ⟨es, other, hm, hn, hes⟩
  · rw [hm, hn]
  · have hfields := hes.filter fun e => names.contains e.1
    have hnodup := (hfields.map (·.1)).nodup_iff
    rw [hm, hn, Option.bind_some, Option.bind_some]
    split
    · rename_i hd
      rw [if_pos (hnodup.1 hd), hb (sameFields_of_perm hd hfields)]
    · rename_i hd
      rw [if_neg (hd ∘ hnodup.2)]

theorem zip_forall₂ {xs ys : List Value} (h : List.Forall₂ Reorders xs ys) :
    ∀ names : List String, List.Forall₂ SameField (names.zip xs) (names.zip ys) := by
  induction h with
  | nil =>
    intro names
    rw [List.zip_nil_right]
    exact .nil
  | cons h _ ih =>
    intro names
    cases names with
    | nil => exact .nil
    | cons name names => exact .cons ⟨rfl, h⟩ (ih names)

theorem readRecord?_reorders
    (hb : ∀ {es other : Entries}, es.SameFields other → build? es = build? other)
    (h : Reorders v w) : readRecord? names build? v = readRecord? names build? w := by
  rcases h.cases with rfl | ⟨xs, ys, rfl, rfl, hitems⟩ | ⟨m, n, rfl, rfl⟩ |
    ⟨tag, a, b, rfl, rfl, -⟩
  · rfl
  · rw [readRecord?, readRecord?, hitems.length_eq,
      hb (sameFields_of_forall₂ (zip_forall₂ hitems _))]
  · -- first the values change, then the places
    obtain ⟨k, hk, hperm⟩ := h.entries_perm
    rw [readRecord?_forall₂ hb hk, readRecord?_perm hb hperm]
  · rfl

theorem Entries.SameFields.readField? {r : Reader α} (h : es.SameFields other) (hr : r.Steady)
    (name : String) (default : α) :
    es.readField? name r default = other.readField? name r default := by
  unfold Entries.readField?
  rcases rel_cases (h name) with ⟨hv, hw⟩ | ⟨v, w, hv, hw, hvw⟩
  · rw [hv, hw]
  · rw [hv, hw]
    exact congrArg Except.toOption (hr hvw)

theorem Header.read?_reorders (h : Reorders v w) : Header.read? v = Header.read? w := by
  refine readRecord?_reorders (fun hes => ?_) h
  unfold Header.ofEntries?
  rw [hes.readField? Reader.steady_text, hes.readField? Reader.steady_secret]

theorem Call.steady_headers? : Reader.Steady Call.headers? :=
  Reader.Steady.of_parts
    (fun h => by rw [Call.headers?, Call.headers?,
      mapM_forall₂ (f := Header.read?) (fun _ _ => Header.read?_reorders) h])
    (fun _ => rfl) fun _ _ _ => rfl

theorem Call.read?_reorders (h : Reorders v w) : Call.read? v = Call.read? w := by
  refine readRecord?_reorders (fun hes => ?_) h
  unfold Call.ofEntries?
  simp only [hes.readField? Reader.steady_text, hes.readField? Reader.steady_secret,
    hes.readField? Call.steady_headers?, hes.readField? Reader.steady_switch]

theorem Call.steady_readSome : Reader.Steady Call.readSome := by
  intro v w h
  have hone : Call.readOne v = Call.readOne w := by
    rw [Call.readOne, Call.readOne, Call.read?_reorders h, Reader.ofVariants_reorders h]
  rcases h.cases with rfl | ⟨xs, ys, rfl, rfl, hitems⟩ | ⟨m, n, rfl, rfl⟩ |
    ⟨tag, a, b, rfl, rfl, -⟩
  · rfl
  · rw [Call.readSome_list, Call.readSome_list,
      mapM_forall₂ (f := Call.read?) (fun _ _ => Call.read?_reorders) hitems, hone]
  · exact hone
  · exact hone

end Records

section Tables

variable {r : Reader α} {m n : Mapping} {es : List (String × α)}

theorem entries_toOption (r : Reader α) (m : Mapping) : (Reader.entries r m).toOption =
    m.mapM fun e => (Reader.text e.1).toOption.bind fun key =>
      (r e.2).toOption.map fun a => (key, a) := by
  induction m with
  | nil => rfl
  | cons e rest ih =>
    rw [option_mapM_cons, ← ih, Reader.entries]
    rcases Reader.text e.1 with f | key
    · rfl
    · rcases r e.2 with f | a
      · rfl
      · rcases Reader.entries r rest with f | es <;> rfl

/-- The keys of a mapping that is read to a table. -/
theorem names_of_entries (hp : (Value.mapping m).Plain)
    (h : (Reader.entries r m).toOption = some es) :
    es.map (fun e => Value.string e.1) = m.keys := by
  rw [entries_toOption] at h
  induction m generalizing es with
  | nil =>
    cases h
    rfl
  | cons e rest ih =>
    obtain ⟨s, hs⟩ := hp.key_eq (List.mem_cons_self (a := e) (l := rest))
    rw [option_mapM_cons, hs, Option.bind_eq_some_iff] at h
    obtain ⟨f, hf, h⟩ := h
    obtain ⟨others, ho, rfl⟩ := Option.map_eq_some_iff.1 h
    obtain ⟨a, -, rfl⟩ := Option.map_eq_some_iff.1 hf
    rw [List.map_cons, Mapping.keys_cons, hs,
      ih (hp.of_subset (List.subset_cons_self e rest)) ho]

theorem Reader.Steady.entries (hr : r.Steady) (h : List.Forall₂ SameEntry m n) :
    (Reader.entries r m).toOption = (Reader.entries r n).toOption := by
  rw [entries_toOption, entries_toOption]
  exact mapM_forall₂ (fun e f hef => by rw [hef.1, hr hef.2]) h

theorem Reader.Steady.table (hr : r.Steady) : (Reader.table r).Indifferent := by
  have hread : ∀ m : Mapping, ((Reader.entries r m).map Table.ofList).toOption =
      (Reader.entries r m).toOption.map Table.ofList := by
    intro m
    rcases Reader.entries r m with f | es <;> rfl
  intro v w hp ht h
  rw [Reader.table, Reader.table, hp.untagged_eq, (h.plain hp).untagged_eq]
  rcases h.cases with rfl | ⟨xs, ys, rfl, rfl, -⟩ | ⟨m, n, rfl, rfl⟩ | ⟨tag, a, b, rfl, rfl, -⟩
  · rfl
  · rfl
  · obtain ⟨k, hk, hperm⟩ := h.entries_perm
    have hn := (h.distinct ht.distinct).nodup
    have hrel : Option.Rel List.Perm (Reader.entries r n).toOption
        (Reader.entries r k).toOption := by
      rw [entries_toOption, entries_toOption]
      exact mapM_perm _ hperm.symm
    simp only [hread, hr.entries hk]
    rcases rel_cases hrel with ⟨hes, hother⟩ | ⟨es, other, hes, hother, hperm⟩
    · rw [hes, hother]
    · have hnodup : (es.map (·.1)).Nodup := by
        rw [← names_of_entries (h.plain hp) hes] at hn
        exact List.Nodup.of_map Value.string (by rwa [List.map_map])
      rw [hes, hother, Option.map_some, Option.map_some, Option.some.injEq]
      refine Table.ext_get? fun key => ?_
      rw [Table.get?_ofList_of_nodup hnodup,
        Table.get?_ofList_of_nodup ((hperm.map (·.1)).nodup_iff.1 hnodup),
        entryFor?_perm hnodup hperm]
  · rfl

end Tables

section Shapes

variable {es other : Entries} {r : Reader α} {s : Shape} {m n : Mapping} {name : String}

/-- The entries of two sections that differ in the order of keys. -/
structure Entries.Alike (es other : Entries) : Prop where
  nodup : (es.map (·.1)).Nodup
  nodup_other : (other.map (·.1)).Nodup
  plain : ∀ name v, es.get? name = some v → v.Plain
  tidy : ∀ name v, es.get? name = some v → v.Tidy
  fields : es.SameFields other

theorem Entries.alike_ofMapping (hp : (Value.mapping m).Plain) (ht : (Value.mapping m).Tidy)
    (h : Reorders (.mapping m) (.mapping n)) : (ofMapping m).Alike (ofMapping n) where
  nodup := nodup_ofMapping hp ht.nodup
  nodup_other := nodup_ofMapping (h.plain hp) (h.tidy ht).nodup
  plain name v hv := hp.get? ((get?_ofMapping hp name).symm.trans hv)
  tidy name v hv := ht.get? ((get?_ofMapping hp name).symm.trans hv)
  fields name := by
    rw [get?_ofMapping hp, get?_ofMapping (h.plain hp)]
    exact h.get? ht.distinct _

namespace Entries.Alike

theorem read (h : es.Alike other) (hr : r.Indifferent) (name : String) (default : α) :
    es.read name r default = other.read name r default := by
  have hread : ∀ es : Entries, es.read name r default =
      ((es.get? name).bind fun v => (r v).toOption).getD default := by
    intro es
    unfold Entries.read
    rcases es.get? name with _ | v
    · rfl
    · simp only [Option.bind_some]
      rcases r v with f | a <;> rfl
  rw [hread, hread]
  rcases rel_cases (h.fields name) with ⟨hv, hw⟩ | ⟨v, w, hv, hw, hvw⟩
  · rw [hv, hw]
  · rw [hv, hw, Option.bind_some, Option.bind_some, hr (h.plain name v hv) (h.tidy name v hv) hvw]

theorem flags (h : es.Alike other) (s : Shape) : s.flags es = s.flags other := by
  refine Table.ext_get? fun name => ?_
  rw [Shape.get?_flags h.nodup, Shape.get?_flags h.nodup_other]
  rcases rel_cases (h.fields name) with ⟨hv, hw⟩ | ⟨v, w, hv, hw, hvw⟩
  · rw [hv, hw]
  · rw [hv, hw, Option.bind_some, Option.bind_some, FlagValue.ofValue?, FlagValue.ofValue?,
      FlagValue.ofValue_reorders v hvw]

end Entries.Alike

/-- Checks that pass whatever the order of keys. -/
def FieldChecks.Indifferent (g : FieldChecks) : Prop :=
  ∀ e ∈ g, ∀ ⦃v w : Value⦄, v.Plain → v.Tidy → Reorders v w → e.2 v = none → e.2 w = none

def Shape.Indifferent (s : Shape) : Prop := ∀ g ∈ s.own :: s.groups, g.Indifferent

theorem Reader.Indifferent.fault? (h : r.Indifferent) ⦃v w : Value⦄ (hp : v.Plain) (ht : v.Tidy)
    (hvw : Reorders v w) (hv : r.fault? v = none) : r.fault? w = none := by
  have hread := h hp ht hvw
  unfold Reader.fault? at hv ⊢
  rcases hrv : r v with f | a
  · rw [hrv] at hv
    cases hv
  · rw [hrv] at hread
    rw [toOption_eq_some.1 hread.symm]

namespace Shape

theorem Accepts.reorders (hs : s.Indifferent) (hp : v.Plain) (ht : v.Tidy) (h : Reorders v w)
    (ha : s.Accepts name v) : s.Accepts name w where
  passes g hg check hc := by
    obtain ⟨front, back, rfl, -⟩ := List.lookup_eq_some_iff.1 hc
    exact hs _ hg (name, check) (by simp) hp ht h (ha.passes _ hg check hc)
  untagged hl := h.hasTag_eq ▸ ha.untagged hl
  flag hn := FlagValue.ofValue_reorders v h ▸ ha.flag hn

theorem fault?_reorders (hs : s.Indifferent) (hp : (Value.mapping m).Plain)
    (ht : (Value.mapping m).Tidy) (h : Reorders (.mapping m) (.mapping n))
    (hm : s.fault? m = none) : s.fault? n = none := by
  rw [fault?_eq_none_iff hp ht.nodup] at hm
  rw [fault?_eq_none_iff (h.plain hp) (h.tidy ht).nodup]
  intro name w hw
  rcases h.get?_cases ht.distinct (.string name) with ⟨-, hnone⟩ | ⟨v, w', hv, hw', hvw⟩
  · rw [hnone] at hw
    cases hw
  · rw [hw'] at hw
    cases hw
    exact (hm name v hv).reorders hs (hp.get? hv) (ht.get? hv) hvw

/-- An open section whose fields are read indifferently. -/
theorem indifferent_readOpen {build : Entries → σ} (hs : s.Indifferent)
    (hb : ∀ {es other : Entries}, es.Alike other → build es = build other) :
    (s.readOpen build).Indifferent := by
  intro v w hp ht h
  rw [readOpen, readOpen, hp.untagged_eq, (h.plain hp).untagged_eq]
  rcases h.cases with rfl | ⟨xs, ys, rfl, rfl, -⟩ | ⟨m, n, rfl, rfl⟩ | ⟨tag, a, b, rfl, rfl, -⟩
  · rfl
  · rfl
  · simp only []
    rcases hm : s.fault? m with _ | f
    · rw [fault?_reorders hs hp ht h hm]
      exact congrArg some (hb (Entries.alike_ofMapping hp ht h))
    · rcases hn : s.fault? n with _ | f'
      · have hnone := fault?_reorders hs (h.plain hp) (h.tidy ht) h.symm hn
        rw [hm] at hnone
        cases hnone
      · rfl
  · rfl

end Shape

end Shapes

end BackupProfiles
