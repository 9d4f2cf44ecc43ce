/-!
# Splitting texts

A text is split at every separator; empty parts are kept, so joining the parts with the separator
gives the text back.
-/

namespace BackupProfiles.Text

def splitChars (sep : Char) : List Char → List (List Char)
  | [] => [[]]
  | c :: rest =>
    if c = sep then [] :: splitChars sep rest
    else match splitChars sep rest with
      | [] => [[c]]
      | part :: parts => (c :: part) :: parts

def split (sep : Char) (s : String) : List String :=
  (splitChars sep s.toList).map String.ofList

def joinChars (sep : Char) : List (List Char) → List Char
  | [] => []
  | [part] => part
  | part :: parts => part ++ sep :: joinChars sep parts

def join (sep : Char) (parts : List String) : String :=
  String.ofList (joinChars sep (parts.map String.toList))

theorem splitChars_ne_nil (sep : Char) (cs : List Char) : splitChars sep cs ≠ [] := by
  induction cs with
  | nil => simp [splitChars]
  | cons c rest ih =>
    rw [splitChars]
    split
    · simp
    · split <;> simp

theorem joinChars_splitChars (sep : Char) (cs : List Char) :
    joinChars sep (splitChars sep cs) = cs := by
  induction cs with
  | nil => rfl
  | cons c rest ih =>
    rw [splitChars]
    split
    · next h =>
      cases hs : splitChars sep rest with
      | nil => exact absurd hs (splitChars_ne_nil sep rest)
      | cons part parts => simp [joinChars, ← hs, ih, h]
    · cases hs : splitChars sep rest with
      | nil => exact absurd hs (splitChars_ne_nil sep rest)
      | cons part parts =>
        rw [hs] at ih
        cases parts <;> simp_all [joinChars]

end BackupProfiles.Text
