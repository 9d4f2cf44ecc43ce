/-!
# Tables

A table maps texts to values and keeps its keys in ascending order, so that two tables with the
same look-ups are equal. `insert` replaces the value of a key that is there.
-/

namespace BackupProfiles

structure Table (α : Type) where
  entries : List (String × α)
  sorted : entries.Pairwise fun a b => a.1 < b.1

namespace Table

variable {α β : Type}

def empty : Table α := ⟨[], .nil⟩

instance : Inhabited (Table α) := ⟨empty⟩

instance [DecidableEq α] : DecidableEq (Table α) := fun s t =>
  decidable_of_iff (s.entries = t.entries)
    ⟨fun h => by cases s; cases t; cases h; rfl, fun h => h ▸ rfl⟩

instance [BEq α] : BEq (Table α) := ⟨fun s t => s.entries == t.entries⟩

instance [Repr α] : Repr (Table α) := ⟨fun t n => reprPrec t.entries n⟩

def isEmpty (t : Table α) : Bool := t.entries.isEmpty

def keys (t : Table α) : List String := t.entries.map (·.1)

def values (t : Table α) : List α := t.entries.map (·.2)

def get? (t : Table α) (key : String) : Option α :=
  (t.entries.find? fun e => e.1 == key).map (·.2)

def contains (t : Table α) (key : String) : Bool := (t.get? key).isSome

/-- One pass: stops at the first key that is not smaller. -/
def insertSorted (key : String) (value : α) : List (String × α) → List (String × α)
  | [] => [(key, value)]
  | e :: rest =>
    if key < e.1 then (key, value) :: e :: rest
    else if key = e.1 then (key, value) :: rest
    else e :: insertSorted key value rest

theorem mem_insertSorted {key : String} {value : α} {a : String × α} {l : List (String × α)}
    (h : a ∈ insertSorted key value l) : a = (key, value) ∨ a ∈ l := by
  induction l with
  | nil => simpa [insertSorted] using h
  | cons e rest ih =>
    rw [insertSorted] at h
    split at h
    · simpa using h
    · split at h
      · simp only [List.mem_cons] at h ⊢
        exact h.imp_right .inr
      · simp only [List.mem_cons] at h ⊢
        rcases h with h | h
        · exact .inr (.inl h)
        · exact (ih h).imp_right .inr

theorem pairwise_insertSorted (key : String) (value : α) {l : List (String × α)}
    (h : l.Pairwise fun a b => a.1 < b.1) :
    (insertSorted key value l).Pairwise fun a b => a.1 < b.1 := by
  induction l with
  | nil => simp [insertSorted]
  | cons e rest ih =>
    have ⟨head, tail⟩ := List.pairwise_cons.1 h
    rw [insertSorted]
    split
    · next lt =>
      refine List.pairwise_cons.2 ⟨fun a ha => ?_, h⟩
      rcases List.mem_cons.1 ha with rfl | ha
      · exact lt
      · exact String.lt_trans lt (head a ha)
    · next nlt =>
      split
      · next eq => exact List.pairwise_cons.2 ⟨fun a ha => eq ▸ head a ha, tail⟩
      · next ne =>
        refine List.pairwise_cons.2 ⟨fun a ha => ?_, ih tail⟩
        rcases mem_insertSorted ha with rfl | ha
        · refine Decidable.byContradiction fun h => ne ?_
          exact String.le_antisymm (String.not_lt.1 h) (String.not_lt.1 nlt)
        · exact head a ha

def insert (t : Table α) (key : String) (value : α) : Table α :=
  ⟨insertSorted key value t.entries, pairwise_insertSorted key value t.sorted⟩

/-- Of several entries with one key the last counts. -/
def ofList (entries : List (String × α)) : Table α :=
  entries.foldl (fun t e => t.insert e.1 e.2) empty

def mapEntries (f : String → α → β) (t : Table α) : Table β :=
  ⟨t.entries.map fun e => (e.1, f e.1 e.2), by
    rw [List.pairwise_map]; exact t.sorted⟩

def map (f : α → β) (t : Table α) : Table β := t.mapEntries fun _ a => f a

end Table

end BackupProfiles
