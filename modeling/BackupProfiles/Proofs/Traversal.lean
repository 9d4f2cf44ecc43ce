import Mathlib.Data.List.Forall2

/-!
# Reading lists

A list is read by reading its elements in turn. It is read when all of them are
(`mapM_eq_ok_iff`), and otherwise it fails with the first of them that fails (`mapM_eq_error_iff`).
-/

namespace BackupProfiles

/-- Reading a list in turn succeeds with what its elements are read to, one for each. -/
theorem mapM_eq_ok_iff {α β ε : Type} {f : α → Except ε β} {l : List α} {bs : List β} :
    l.mapM f = .ok bs ↔ List.Forall₂ (fun a b => f a = .ok b) l bs := by
  induction l generalizing bs with
  | nil => cases bs <;> simp [pure, Except.pure]
  | cons a rest ih =>
    rw [List.mapM_cons]
    rcases ha : f a with why | b
    · cases bs <;> simp [ha, bind, Except.bind]
    · rcases hr : rest.mapM f with why | others
      · cases bs <;> simp [ha, hr, ← ih, bind, Except.bind]
      · cases bs <;> simp [ha, hr, ← ih, bind, Except.bind, pure, Except.pure]

/-- A list that was written element by element is read again when every element is. -/
theorem mapM_map_eq_ok {α β ε : Type} {f : β → Except ε α} {write : α → β}
    (h : ∀ a, f (write a) = .ok a) (l : List α) : (l.map write).mapM f = .ok l := by
  refine mapM_eq_ok_iff.2 ?_
  rw [List.forall₂_map_left_iff, List.forall₂_same]
  exact fun a _ => h a

/-- Reading a list in turn fails at the first element that cannot be read. -/
theorem mapM_eq_error_iff {α β ε : Type} {f : α → Except ε β} {l : List α} {e : ε} :
    l.mapM f = .error e ↔ ∃ before a after, l = before ++ a :: after ∧
      (∀ b ∈ before, ∃ c, f b = .ok c) ∧ f a = .error e := by
  induction l with
  | nil => simp [pure, Except.pure]
  | cons a rest ih =>
    rw [List.mapM_cons]
    rcases ha : f a with why | b
    · show Except.error why = Except.error e ↔ _
      rw [Except.error.injEq]
      constructor
      · rintro rfl
        exact ⟨[], a, rest, rfl, by simp, ha⟩
      · rintro ⟨before, x, after, hl, hbefore, hx⟩
        rcases before with _ | ⟨first, before⟩
        · obtain ⟨rfl, -⟩ := List.cons.inj hl
          exact Except.error.inj (ha.symm.trans hx)
        · obtain ⟨rfl, -⟩ := List.cons.inj hl
          obtain ⟨c, hc⟩ := hbefore a List.mem_cons_self
          rw [ha] at hc
          cases hc
    · have hrest : ((.ok b : Except ε β) >>= fun b => rest.mapM f >>= fun bs => pure (b :: bs)) =
          .error e ↔ rest.mapM f = .error e := by
        rcases rest.mapM f with why | bs <;> simp [bind, Except.bind, pure, Except.pure]
      rw [hrest, ih]
      constructor
      · rintro ⟨before, x, after, rfl, hbefore, hx⟩
        exact ⟨a :: before, x, after, rfl, List.forall_mem_cons.2 ⟨⟨b, ha⟩, hbefore⟩, hx⟩
      · rintro ⟨before, x, after, hl, hbefore, hx⟩
        rcases before with _ | ⟨first, before⟩
        · obtain ⟨rfl, -⟩ := List.cons.inj hl
          rw [ha] at hx
          cases hx
        · obtain ⟨rfl, rfl⟩ := List.cons.inj hl
          exact ⟨before, x, after, rfl, fun y hy => hbefore y (List.mem_cons_of_mem _ hy), hx⟩

end BackupProfiles
