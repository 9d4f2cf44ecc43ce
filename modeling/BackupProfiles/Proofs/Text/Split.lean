import BackupProfiles.Text.Split

/-!
# Parts of texts

Splitting a text that is put together at a separator gives the parts of both pieces
(`splitChars_append`), so parts that hold no separator are read back from what they are joined to
(`splitChars_joinChars`).
-/

namespace BackupProfiles.Text

variable {sep : Char}

theorem notMem_of_mem_splitChars : ∀ {cs part : List Char}, part ∈ splitChars sep cs → sep ∉ part
  | [], part, h => by
    rw [splitChars, List.mem_singleton] at h
    rw [h]
    exact List.not_mem_nil
  | c :: rest, part, h => by
    have ih : ∀ {p : List Char}, p ∈ splitChars sep rest → sep ∉ p := notMem_of_mem_splitChars
    rw [splitChars] at h
    split at h
    · rcases List.mem_cons.1 h with rfl | h
      · exact List.not_mem_nil
      · exact ih h
    · rename_i hc
      rcases hs : splitChars sep rest with _ | ⟨first, parts⟩
      · exact absurd hs (splitChars_ne_nil sep rest)
      · rw [hs] at h ih
        rcases List.mem_cons.1 h with rfl | h
        · rw [List.mem_cons, not_or]
          exact ⟨fun he => hc he.symm, ih List.mem_cons_self⟩
        · exact ih (List.mem_cons_of_mem _ h)

theorem splitChars_append (cs rest : List Char) :
    splitChars sep (cs ++ sep :: rest) = splitChars sep cs ++ splitChars sep rest := by
  induction cs with
  | nil => simp [splitChars]
  | cons c cs ih =>
    rw [List.cons_append, splitChars, splitChars, ih]
    split
    · rfl
    · rcases hs : splitChars sep cs with _ | ⟨first, parts⟩
      · exact absurd hs (splitChars_ne_nil sep cs)
      · rfl

theorem splitChars_of_notMem {part : List Char} (h : sep ∉ part) :
    splitChars sep part = [part] := by
  induction part with
  | nil => rfl
  | cons c cs ih =>
    rw [List.mem_cons, not_or] at h
    rw [splitChars, if_neg (Ne.symm h.1), ih h.2]

theorem splitChars_append_sep {part : List Char} (h : sep ∉ part) (rest : List Char) :
    splitChars sep (part ++ sep :: rest) = part :: splitChars sep rest := by
  rw [splitChars_append, splitChars_of_notMem h]
  rfl

/-- Parts without the separator are read back. -/
theorem splitChars_joinChars : ∀ {parts : List (List Char)}, parts ≠ [] →
    (∀ part ∈ parts, sep ∉ part) → splitChars sep (joinChars sep parts) = parts
  | [part], _, h => splitChars_of_notMem (h part List.mem_cons_self)
  | part :: next :: parts, _, h => by
    rw [List.forall_mem_cons] at h
    rw [joinChars, splitChars_append_sep h.1, splitChars_joinChars (by simp) h.2]
    · simp

theorem exists_joinChars_cons (part : List Char) (parts : List (List Char)) :
    ∃ rest, joinChars sep (part :: parts) = part ++ rest := by
  rcases parts with _ | ⟨next, parts⟩
  · exact ⟨[], (List.append_nil part).symm⟩
  · exact ⟨_, rfl⟩

theorem head?_splitChars (cs : List Char) :
    (splitChars sep cs).head? = some (cs.takeWhile (· != sep)) := by
  induction cs with
  | nil => rfl
  | cons c cs ih =>
    rw [splitChars]
    split
    · rename_i hc
      rw [List.takeWhile_cons_of_neg (by simp [hc])]
      rfl
    · rename_i hc
      rw [List.takeWhile_cons_of_pos (by simp [hc])]
      rcases hs : splitChars sep cs with _ | ⟨first, parts⟩
      · exact absurd hs (splitChars_ne_nil sep cs)
      · rw [hs] at ih
        exact congrArg (Option.map (c :: ·)) ih

end BackupProfiles.Text
