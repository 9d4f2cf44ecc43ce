import BackupProfiles.Text.Split

/-!
# Paths

A path starts at the root or at a place to be given, and goes on by steps into a folder or up to
the folder above. `Path.ofText` drops empty components and `.`, which change nothing. `clean` makes
every step up cancel the step before it, without a look at the disk; the root is its own parent.
-/

namespace BackupProfiles

inductive Step where
  | up
  | into (name : String)
  deriving DecidableEq, Repr, Inhabited

structure Path where
  absolute : Bool
  steps : List Step
  deriving DecidableEq, Repr, Inhabited

namespace Path

/-- The step a component stands for, if it is one. -/
def step? (component : List Char) : Option Step :=
  if component = [] ∨ component = ['.'] then none
  else if component = ['.', '.'] then some .up
  else some (.into (String.ofList component))

def ofText (s : String) : Path where
  absolute := s.toList.head? == some '/'
  steps := (Text.splitChars '/' s.toList).filterMap step?

def isAbsoluteText (s : String) : Bool := (ofText s).absolute

/-- `b` seen from `a`. -/
def append (a b : Path) : Path :=
  if b.absolute then b else ⟨a.absolute, a.steps ++ b.steps⟩

instance : Append Path := ⟨append⟩

/-- One more step after a cleaned path, whose last step comes first. -/
def advance (absolute : Bool) : List Step → Step → List Step
  | done, .into name => .into name :: done
  | .into _ :: done, .up => done
  | done, .up => if absolute then done else .up :: done

def clean (p : Path) : Path :=
  ⟨p.absolute, (p.steps.foldl (advance p.absolute) []).reverse⟩

def stepText : Step → String
  | .up => ".."
  | .into name => name

/-- The text of a path; the path of no steps is `.` or the root. -/
def text (p : Path) : String :=
  let body := Text.join '/' (p.steps.map stepText)
  if p.absolute then "/" ++ body else if p.steps.isEmpty then "." else body

end Path

end BackupProfiles
