import BackupProfiles.Proofs.Flags.Order
import Mathlib.Data.Set.Card

/-!
# Flags as an ordered map

A register maps a name to its values and to the point in time since which the name is held. It knows
no list: writing a name that is held keeps its time, a new name is held from now on, and a name that
is renamed takes its time along. Whatever is done to flags, one edit after the other, they show what
a register shows after the same edits, in the order of its times (`Flags.agrees_editAll`): each edit
keeps the two together (`Represents.edit`).
-/

namespace BackupProfiles

/-- What a register has under a name. -/
structure Holding where
  since : Nat
  values : List String

structure Register where
  held? : String → Option Holding
  /-- The next point in time. -/
  now : Nat

/-- A change of flags. -/
inductive Edit where
  | add (name : String) (values : List String)
  | addValue (name : String) (value : FlagValue)
  | addText (name text : String)
  | addSwitch (name : String) (on : Bool)
  | addList (name : String) (items : List String)
  /-- Writes all flags that are built by edits of their own. -/
  | extend (edits : List Edit)
  | erase (name : String)
  | rename (source target : String)

namespace Register

def empty : Register := ⟨fun _ => none, 0⟩

def values? (r : Register) (name : String) : Option (List String) := (r.held? name).map (·.values)

def since? (r : Register) (name : String) : Option Nat := (r.held? name).map (·.since)

/-- One name is held for longer than another. -/
def Before (r : Register) (a b : String) : Prop :=
  ∃ i j, r.since? a = some i ∧ r.since? b = some j ∧ i < j

/-- New values for a name that is held; a name that is not is held from now on. -/
def write (r : Register) (name : String) (values : List String) : Register where
  held? n := if name = n then some ⟨(r.since? name).getD r.now, values⟩ else r.held? n
  now := r.now + 1

/-- The union of two registers, with the values of the second. Names that only the second holds come
after all names of the first. -/
def union (r t : Register) : Register where
  held? n :=
    match r.held? n, t.held? n with
    | some a, some b => some ⟨a.since, b.values⟩
    | none, some b => some ⟨r.now + b.since, b.values⟩
    | a?, none => a?
  now := r.now + t.now

def remove (r : Register) (name : String) : Register :=
  { r with held? := fun n => if name = n then none else r.held? n }

/-- The new name is held for as long as the old one was; what was held under it is lost. -/
def rename (r : Register) (source target : String) : Register :=
  if source = target ∨ (r.held? source).isNone then r
  else { r with held? := fun n =>
    if target = n then r.held? source else if source = n then none else r.held? n }

mutual

def edit (r : Register) : Edit → Register
  | .add name values => r.write name values
  | .addValue name value => value.emitted?.elim r (r.write name)
  | .addText name text => if text = "" then r else r.write name [text]
  | .addSwitch name on => if on then r.write name [] else r
  | .addList name items => if items = [] then r else r.write name items
  | .extend edits => r.union (editAll .empty edits)
  | .erase name => r.remove name
  | .rename source target => r.rename source target

def editAll (r : Register) : List Edit → Register
  | [] => r
  | e :: rest => editAll (r.edit e) rest

end

end Register

namespace Flags

mutual

def edit (f : Flags) : Edit → Flags
  | .add name values => f.add name values
  | .addValue name value => f.addValue name value
  | .addText name text => f.addText name text
  | .addSwitch name on => f.addSwitch name on
  | .addList name items => f.addList name items
  | .extend edits => f.extend (editAll .empty edits)
  | .erase name => f.erase name
  | .rename source target => f.rename source target

def editAll (f : Flags) : List Edit → Flags
  | [] => f
  | e :: rest => editAll (f.edit e) rest

end

end Flags

/-- Flags show what a register holds: its names, each once and those held for longer first, with
their values. -/
structure Agrees (f : Flags) (r : Register) : Prop where
  distinct : f.names.Nodup
  get? : ∀ n, f.get? n = r.values? n
  contains : ∀ n, f.contains n = (r.held? n).isSome
  size : f.size = {n | r.held? n ≠ none}.ncard
  ordered : f.names.Pairwise r.Before

/-- What edits keep: flags agree with a register, and the times in it have passed. -/
structure Represents (f : Flags) (r : Register) : Prop where
  distinct : f.Distinct
  get? : ∀ n, f.get? n = r.values? n
  ordered : f.names.Pairwise r.Before
  passed : ∀ n i, r.since? n = some i → i < r.now

variable {f g : Flags} {r t : Register} {name a b : String}

namespace Register

theorem since?_eq_none_iff : r.since? name = none ↔ r.values? name = none := by
  rw [since?, values?, Option.map_eq_none_iff, Option.map_eq_none_iff]

theorem Before.of_since? {a' b' : String} (h : r.Before a b) (ha : t.since? a' = r.since? a)
    (hb : t.since? b' = r.since? b) : t.Before a' b' := by
  obtain ⟨i, j, hi, hj, hij⟩ := h
  exact ⟨i, j, ha.trans hi, hb.trans hj, hij⟩

theorem values?_write (r : Register) (name : String) (values : List String) (n : String) :
    (r.write name values).values? n = if name = n then some values else r.values? n := by
  by_cases h : name = n <;> simp [values?, write, h]

theorem since?_write (r : Register) (name : String) (values : List String) (n : String) :
    (r.write name values).since? n =
      if name = n then some ((r.since? name).getD r.now) else r.since? n := by
  by_cases h : name = n <;> simp [since?, write, h]

theorem values?_union (r t : Register) (n : String) :
    (r.union t).values? n = (t.values? n).or (r.values? n) := by
  simp only [values?, union]
  rcases r.held? n with _ | a <;> rcases t.held? n with _ | b <;> rfl

theorem since?_union (r t : Register) (n : String) :
    (r.union t).since? n = (r.since? n).or ((t.since? n).map (r.now + ·)) := by
  simp only [since?, union]
  rcases r.held? n with _ | a <;> rcases t.held? n with _ | b <;> rfl

theorem values?_remove (r : Register) (name n : String) :
    (r.remove name).values? n = if name = n then none else r.values? n := by
  by_cases h : name = n <;> simp [values?, remove, h]

theorem since?_remove (r : Register) (name n : String) :
    (r.remove name).since? n = if name = n then none else r.since? n := by
  by_cases h : name = n <;> simp [since?, remove, h]

theorem rename_of_none {source : String} (h : r.values? source = none) (target : String) :
    r.rename source target = r := by
  rw [values?, Option.map_eq_none_iff] at h
  rw [rename, if_pos]
  simp [h]

theorem held?_rename {source target : String} (hne : source ≠ target)
    (hs : r.values? source ≠ none) (n : String) : (r.rename source target).held? n =
      if target = n then r.held? source else if source = n then none else r.held? n := by
  have hheld : (r.held? source).isNone = false := by
    rw [values?, ne_eq, Option.map_eq_none_iff, ← Option.isNone_iff_eq_none] at hs
    exact Bool.eq_false_iff.2 hs
  rw [rename, if_neg (by simp [hne, hheld])]

theorem values?_rename {source target : String} (hne : source ≠ target)
    (hs : r.values? source ≠ none) (n : String) : (r.rename source target).values? n =
      if target = n then r.values? source else if source = n then none else r.values? n := by
  rw [values?, held?_rename hne hs]
  split
  · rfl
  · split <;> rfl

theorem since?_rename {source target : String} (hne : source ≠ target)
    (hs : r.values? source ≠ none) (n : String) : (r.rename source target).since? n =
      if target = n then r.since? source else if source = n then none else r.since? n := by
  rw [since?, held?_rename hne hs]
  split
  · rfl
  · split <;> rfl

end Register

namespace Represents

theorem mem_names_iff (h : Represents f r) : name ∈ f.names ↔ r.values? name ≠ none := by
  rw [Flags.mem_names_iff, h.get?]

theorem empty : Represents .empty .empty where
  distinct := Flags.distinct_empty
  get? _ := rfl
  ordered := .nil
  passed _ _ h := nomatch h

/-- A name that stands in the flags is held since a time that has passed. -/
theorem exists_since (h : Represents f r) (hn : name ∈ f.names) :
    ∃ i, r.since? name = some i ∧ i < r.now := by
  rw [h.mem_names_iff, ne_eq, ← Register.since?_eq_none_iff] at hn
  obtain ⟨i, hi⟩ := Option.ne_none_iff_exists'.1 hn
  exact ⟨i, hi, h.passed name i hi⟩

theorem since?_eq_none (h : Represents f r) (hn : name ∉ f.names) : r.since? name = none := by
  rw [Register.since?_eq_none_iff]
  exact not_not.1 (mt h.mem_names_iff.2 hn)

theorem add (h : Represents f r) (name : String) (values : List String) :
    Represents (f.add name values) (r.write name values) where
  distinct := Flags.distinct_add h.distinct name values
  get? n := by rw [Flags.get?_add, Register.values?_write, h.get?]
  ordered := by
    rw [Flags.names_add]
    split
    · rename_i hn
      obtain ⟨i, hi, -⟩ := h.exists_since hn
      have hkept : ∀ n, (r.write name values).since? n = r.since? n := fun n => by
        rw [Register.since?_write]
        split
        · rename_i heq
          rw [← heq, hi, Option.getD_some]
        · rfl
      exact h.ordered.imp fun hab => hab.of_since? (hkept _) (hkept _)
    · rename_i hn
      have hkept : ∀ n ∈ f.names, (r.write name values).since? n = r.since? n := fun n hmem => by
        rw [Register.since?_write, if_neg]
        rintro rfl
        exact hn hmem
      refine List.pairwise_append.2 ⟨?_, List.pairwise_singleton _ _, fun a ha b hb => ?_⟩
      · exact h.ordered.imp_of_mem fun ha hb hab => hab.of_since? (hkept _ ha) (hkept _ hb)
      · obtain ⟨i, hi, hlt⟩ := h.exists_since ha
        rw [List.mem_singleton.1 hb]
        refine ⟨i, r.now, (hkept a ha).trans hi, ?_, hlt⟩
        rw [Register.since?_write, if_pos rfl, h.since?_eq_none hn, Option.getD_none]
  passed n i hi := by
    rw [Register.since?_write] at hi
    show i < r.now + 1
    split at hi
    · rcases hs : r.since? name with _ | j
      · rw [hs, Option.getD_none, Option.some.injEq] at hi
        omega
      · rw [hs, Option.getD_some, Option.some.injEq] at hi
        have := h.passed name j hs
        omega
    · have := h.passed n i hi
      omega

theorem addValue (h : Represents f r) (name : String) (value : FlagValue) :
    Represents (f.addValue name value) (value.emitted?.elim r (r.write name)) := by
  rw [Flags.addValue]
  rcases value.emitted? with _ | values
  · exact h
  · exact h.add name values

theorem remove (h : Represents f r) (name : String) :
    Represents (f.erase name) (r.remove name) where
  distinct := Flags.distinct_erase h.distinct name
  get? n := by rw [Flags.get?_erase h.distinct, Register.values?_remove, h.get?]
  ordered := by
    have hkept : ∀ n ∈ f.names.filter (· ≠ name), (r.remove name).since? n = r.since? n := by
      intro n hn
      rw [Register.since?_remove, if_neg]
      rintro rfl
      simp at hn
    rw [Flags.names_erase h.distinct]
    exact (h.ordered.filter _).imp_of_mem fun ha hb hab => hab.of_since? (hkept _ ha) (hkept _ hb)
  passed n i hi := by
    rw [Register.since?_remove] at hi
    split at hi
    · cases hi
    · exact h.passed n i hi

theorem union (h : Represents f r) (ht : Represents g t) :
    Represents (f.extend g) (r.union t) where
  distinct := Flags.distinct_extend h.distinct g
  get? n := by rw [Flags.get?_extend ht.distinct, Register.values?_union, h.get?, ht.get?]
  ordered := by
    have hfirst : ∀ n ∈ f.names, (r.union t).since? n = r.since? n := by
      intro n hn
      obtain ⟨i, hi, -⟩ := h.exists_since hn
      rw [Register.since?_union, hi, Option.some_or]
    have hsecond : ∀ n ∈ g.names.filter (· ∉ f.names),
        (r.union t).since? n = (t.since? n).map (r.now + ·) := by
      intro n hn
      have hnew : n ∉ f.names := by simpa using (List.mem_filter.1 hn).2
      rw [Register.since?_union, h.since?_eq_none hnew, Option.none_or]
    rw [Flags.names_extend ht.distinct]
    refine List.pairwise_append.2 ⟨?_, ?_, fun a ha b hb => ?_⟩
    · exact h.ordered.imp_of_mem fun ha hb hab => hab.of_since? (hfirst _ ha) (hfirst _ hb)
    · refine (ht.ordered.filter _).imp_of_mem fun ha hb hab => ?_
      obtain ⟨i, j, hi, hj, hij⟩ := hab
      refine ⟨r.now + i, r.now + j, ?_, ?_, by omega⟩
      · rw [hsecond _ ha, hi, Option.map_some]
      · rw [hsecond _ hb, hj, Option.map_some]
    · obtain ⟨i, hi, hlt⟩ := h.exists_since ha
      obtain ⟨j, hj, -⟩ := ht.exists_since (List.mem_filter.1 hb).1
      refine ⟨i, r.now + j, (hfirst a ha).trans hi, ?_, by omega⟩
      rw [hsecond b hb, hj, Option.map_some]
  passed n i hi := by
    rw [Register.since?_union, Option.or_eq_some_iff] at hi
    show i < r.now + t.now
    rcases hi with hi | ⟨-, hi⟩
    · have := h.passed n i hi
      omega
    · obtain ⟨j, hj, rfl⟩ := Option.map_eq_some_iff.1 hi
      have := ht.passed n j hj
      omega

theorem rename (h : Represents f r) (source target : String) :
    Represents (f.rename source target) (r.rename source target) := by
  by_cases hne : source = target
  · rw [Flags.rename, Register.rename, if_pos (Or.inl hne), if_pos (Or.inl hne)]
    exact h
  by_cases hs : source ∈ f.names
  swap
  · rw [Flags.rename_of_notMem hs, Register.rename_of_none (by rwa [h.mem_names_iff, not_not] at hs)]
    exact h
  have hvalues : r.values? source ≠ none := h.mem_names_iff.1 hs
  exact {
    distinct := Flags.distinct_rename h.distinct source target
    get? := fun n => by
      obtain ⟨values, hv⟩ := Option.ne_none_iff_exists'.1 hvalues
      rw [Flags.get?_rename h.distinct hne, Register.values?_rename hne hvalues]
      simp only [h.get?, hv, Option.some_or]
      by_cases hn : source = n
      · rw [if_pos hn, if_neg fun ht => hne (hn.trans ht.symm), if_pos hn]
      · rw [if_neg hn, if_neg hn]
    ordered := by
      have hkept : ∀ n ∈ f.names.filter (· ≠ target), (r.rename source target).since?
          (if n = source then target else n) = r.since? n := by
        intro n hn
        have hnt : n ≠ target := by simpa using (List.mem_filter.1 hn).2
        rw [Register.since?_rename hne hvalues]
        by_cases hns : n = source
        · rw [if_pos hns, if_pos rfl, hns]
        · rw [if_neg hns, if_neg hnt.symm, if_neg (Ne.symm hns)]
      rw [Flags.names_rename h.distinct hne (Flags.contains_iff.2 hs), List.pairwise_map]
      exact (h.ordered.filter _).imp_of_mem fun ha hb hab => hab.of_since? (hkept _ ha) (hkept _ hb)
    passed := fun n i hi => by
      have hnow : (r.rename source target).now = r.now := by
        rw [Register.rename]
        split <;> rfl
      rw [Register.since?_rename hne hvalues] at hi
      rw [hnow]
      split at hi
      · exact h.passed source i hi
      · split at hi
        · cases hi
        · exact h.passed n i hi }

mutual

/-- An edit keeps flags and register together. The flags that it writes all at once are kept together
with theirs by the edits that build them. -/
theorem edit {f : Flags} {r : Register} (h : Represents f r) :
    ∀ e : Edit, Represents (f.edit e) (r.edit e)
  | .add name values => h.add name values
  | .addValue name value => h.addValue name value
  | .addText name text => by
    have hadd := h.addValue name (.text text)
    rw [FlagValue.emitted?, apply_ite (Option.elim · r (r.write name))] at hadd
    exact hadd
  | .addSwitch name on => by
    have hadd := h.addValue name (.switch on)
    rw [FlagValue.emitted?, apply_ite (Option.elim · r (r.write name))] at hadd
    exact hadd
  | .addList name items => by
    have hadd := h.addValue name (.list items)
    rw [FlagValue.emitted?, apply_ite (Option.elim · r (r.write name))] at hadd
    exact hadd
  | .extend edits => h.union (Represents.empty.editAll edits)
  | .erase name => h.remove name
  | .rename source target => h.rename source target

theorem editAll {f : Flags} {r : Register} (h : Represents f r) : ∀ edits : List Edit,
    Represents (f.editAll edits) (r.editAll edits)
  | [] => h
  | e :: rest => (h.edit e).editAll rest

end

/-- The times of a register settle the order of the flags. -/
theorem agrees (h : Represents f r) : Agrees f r where
  distinct := h.distinct
  get? := h.get?
  contains n := by
    rw [Flags.contains, h.get?, Register.values?, Option.isSome_map]
  size := by
    have hset : {n | r.held? n ≠ none} = ↑f.names.toFinset := by
      ext n
      rw [List.coe_toFinset, Set.mem_ofPred_eq, Set.mem_ofPred_eq, h.mem_names_iff, Register.values?,
        ne_eq, ne_eq, Option.map_eq_none_iff]
    rw [hset, Set.ncard_coe_finset, List.toFinset_card_of_nodup h.distinct, Flags.names,
      List.length_map, Flags.size]
  ordered := h.ordered

end Represents

namespace Agrees

theorem eq (hf : Agrees f r) (hg : Agrees g r) : f = g := by
  have hmem : ∀ n, n ∈ f.names ↔ n ∈ g.names := fun n => by
    rw [Flags.mem_names_iff, Flags.mem_names_iff, hf.get?, hg.get?]
  have hperm : f.names.Perm g.names :=
    (List.perm_ext_iff_of_nodup hf.distinct hg.distinct).2 hmem
  refine Flags.ext_get? hf.distinct (hperm.eq_of_pairwise (fun a b _ _ hab hba => ?_)
    hf.ordered hg.ordered) fun n => (hf.get? n).trans (hg.get? n).symm
  obtain ⟨i, j, hi, hj, hij⟩ := hab
  obtain ⟨j', i', hj', hi', hji⟩ := hba
  rw [hi, Option.some.injEq] at hi'
  rw [hj, Option.some.injEq] at hj'
  omega

end Agrees

namespace Flags

/-- Flags that are built by edits are an ordered map: no name stands twice, look-ups and the size are
those of the register after the same edits, and the names stand in the order of the times since which
it holds them. No other flags show that register. -/
theorem agrees_editAll (edits : List Edit) :
    Agrees (Flags.empty.editAll edits) (Register.empty.editAll edits) ∧
      ∀ g, Agrees g (Register.empty.editAll edits) → g = Flags.empty.editAll edits := by
  have h : Agrees (Flags.empty.editAll edits) (Register.empty.editAll edits) :=
    (Represents.empty.editAll edits).agrees
  exact ⟨h, fun g hg => hg.eq h⟩

/-- A repository whose name is replaced and then taken over by another flag. -/
def takenOver : List Edit := [.addText "repo" "source", .addSwitch "quiet" true,
  .extend [.addText "from-repo" "stale", .addText "repo" "new"],
  .rename "repo" "from-repo", .addText "repo" ""]

theorem agrees_editAll_takenOver :
    Agrees ⟨[("from-repo", ["new"]), ("quiet", [])]⟩ (Register.empty.editAll takenOver) ∧
      ⟨[("from-repo", ["new"]), ("quiet", [])]⟩ = Flags.empty.editAll takenOver := by
  have hflags : Flags.empty.editAll takenOver = ⟨[("from-repo", ["new"]), ("quiet", [])]⟩ := by
    decide
  obtain ⟨hshown, honly⟩ := agrees_editAll takenOver
  rw [hflags] at hshown
  exact ⟨hshown, honly _ hshown⟩

end Flags

end BackupProfiles
