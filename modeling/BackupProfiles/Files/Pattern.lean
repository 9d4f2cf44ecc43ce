import BackupProfiles.Text.Split

/-!
# Patterns of file names

A pattern is a list of symbols: a character, `?` for any one, `*` for any number, and a class in
brackets. `Pattern.read?` refuses a class without its bracket and a double star, except that a
double star alone stands for any number of folders.
-/

namespace BackupProfiles

/-- A part of a class: all characters between two. -/
structure CharRange where
  first : Char
  final : Char
  deriving DecidableEq, Repr

inductive Symbol where
  | char (c : Char)
  | any
  | run
  | oneOf (ranges : List CharRange)
  | noneOf (ranges : List CharRange)
  deriving DecidableEq, Repr

/-- A component of a pattern of paths. -/
inductive Pattern where
  /-- Any number of folders. -/
  | deep
  | name (symbols : List Symbol)
  deriving DecidableEq, Repr

namespace Pattern

def readRanges : List Char → List CharRange
  | a :: '-' :: b :: rest => ⟨a, b⟩ :: readRanges rest
  | a :: rest => ⟨a, a⟩ :: readRanges rest
  | [] => []

/-- The members of a class and what follows its bracket. The first member may be a bracket. -/
def splitClass? : List Char → Option (List Char × List Char)
  | [] => none
  | first :: rest =>
    match rest.dropWhile (· != ']') with
    | [] => none
    | _ :: after => some (first :: rest.takeWhile (· != ']'), after)

/-- The symbols of a component without a double star; the first argument bounds their number. -/
def readSymbols? : Nat → List Char → Option (List Symbol)
  | _, [] => some []
  | 0, _ => none
  | n + 1, '?' :: rest => (readSymbols? n rest).map (.any :: ·)
  | _ + 1, '*' :: '*' :: _ => none
  | n + 1, '*' :: rest => (readSymbols? n rest).map (.run :: ·)
  | n + 1, '[' :: '!' :: rest =>
    (splitClass? rest).bind fun (members, after) =>
      (readSymbols? n after).map (.noneOf (readRanges members) :: ·)
  | n + 1, '[' :: rest =>
    (splitClass? rest).bind fun (members, after) =>
      (readSymbols? n after).map (.oneOf (readRanges members) :: ·)
  | n + 1, c :: rest => (readSymbols? n rest).map (.char c :: ·)

def read? (component : List Char) : Option Pattern :=
  if component = ['*', '*'] then some .deep
  else (readSymbols? component.length component).map .name

def CharRange.contains (r : CharRange) (c : Char) : Bool := r.first ≤ c && c ≤ r.final

/-- Whether a run or what comes after it fits a text. -/
def fitsRun (fits : List Char → Bool) : List Char → Bool
  | [] => fits []
  | c :: rest => fits (c :: rest) || fitsRun fits rest

def fits : List Symbol → List Char → Bool
  | [], cs => cs.isEmpty
  | .run :: symbols, cs => fitsRun (fits symbols) cs
  | _ :: _, [] => false
  | .char d :: symbols, c :: cs => c == d && fits symbols cs
  | .any :: symbols, _ :: cs => fits symbols cs
  | .oneOf ranges :: symbols, c :: cs => ranges.any (CharRange.contains · c) && fits symbols cs
  | .noneOf ranges :: symbols, c :: cs => !ranges.any (CharRange.contains · c) && fits symbols cs

/-- The text of a pattern that is one. -/
def literal? : List Symbol → Option (List Char)
  | [] => some []
  | .char c :: rest => (literal? rest).map (c :: ·)
  | _ :: _ => none

def startsWithDot : List Symbol → Bool
  | .char '.' :: _ => true
  | _ => false

end Pattern

end BackupProfiles
