import BackupProfiles.Text.Blank
import Mathlib.Data.List.TakeWhile

/-!
# Trimming

Blanks at either end of a text do not count: those in front are dropped (`dropBlanks_append`), and
what is dropped at the end is blank (`exists_dropBlanks_eq`). A text without blanks is left as it is
(`trimList_eq_self`).
-/

namespace BackupProfiles.Text

variable {cs blanks : List Char}

theorem dropBlanks_append (h : ∀ c ∈ blanks, isBlank c = true) (cs : List Char) :
    dropBlanks (blanks ++ cs) = dropBlanks cs :=
  List.dropWhile_append_of_pos h

theorem dropBlanks_of_head (h : ∀ c ∈ cs.head?, isBlank c = false) : dropBlanks cs = cs := by
  rcases cs with _ | ⟨c, cs⟩
  · rfl
  · rw [dropBlanks, List.dropWhile_cons_of_neg]
    simp [h c rfl]

/-- Trimming takes nothing but blanks off the end. -/
theorem exists_dropBlanks_eq (cs : List Char) : ∃ blanks : List Char,
    (∀ c ∈ blanks, isBlank c = true) ∧ dropBlanks cs = trimList cs ++ blanks := by
  refine ⟨((dropBlanks cs).reverse.takeWhile isBlank).reverse, fun c hc => ?_, ?_⟩
  · exact List.mem_takeWhile_imp (List.mem_reverse.1 hc)
  · have hsplit := List.takeWhile_append_dropWhile (p := isBlank) (l := (dropBlanks cs).reverse)
    have hreverse := congrArg List.reverse hsplit
    rw [List.reverse_append, List.reverse_reverse] at hreverse
    exact hreverse.symm

theorem trimList_eq_self (h : ∀ c ∈ cs, isBlank c = false) : trimList cs = cs := by
  have hkept : ∀ ds : List Char, (∀ c ∈ ds, isBlank c = false) → dropBlanks ds = ds :=
    fun ds hds => dropBlanks_of_head fun c hc => hds c (List.mem_of_mem_head? hc)
  rw [trimList, hkept cs h, hkept cs.reverse (by simpa using h), List.reverse_reverse]

end BackupProfiles.Text
