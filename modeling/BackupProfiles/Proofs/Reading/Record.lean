import BackupProfiles.Section.Hooks
import Mathlib.Data.List.Forall2

/-!
# Records of calls

Calls and headers are records that are written as maps or as lists. The keys of a map are the names
or the numbers of fields, and `keyed?` are its entries by the fields that they stand for. A moment
is taken as a list of calls first, and then as one call (`Call.readSome_list`).
-/

namespace BackupProfiles

variable {σ : Type} {names : List String}

/-- The field that a key of a record stands for. -/
def fieldOfKey? (names : List String) : Value → Option String
  | .string s => some s
  | .number n => n.word64?.map fun i => names.getD i ""
  | _ => none

/-- The entries of a record by the fields that their keys stand for. -/
def keyed? (names : List String) (m : Mapping) : Option Entries :=
  m.mapM fun e => (fieldOfKey? names e.1).map fun s => (s, e.2)

theorem option_mapM_cons {α β : Type} (f : α → Option β) (a : α) (rest : List α) :
    (a :: rest).mapM f = (f a).bind fun b => (rest.mapM f).map (b :: ·) := by
  rw [List.mapM_cons]
  rcases f a with _ | b
  · rfl
  · rcases rest.mapM f with _ | bs <;> rfl

theorem keyed?_cons (names : List String) (e : Value × Value) (rest : Mapping) :
    keyed? names (e :: rest) =
      (fieldOfKey? names e.1).bind fun s => (keyed? names rest).map ((s, e.2) :: ·) := by
  rw [keyed?, option_mapM_cons, ← keyed?]
  rcases fieldOfKey? names e.1 with _ | s <;> rfl

theorem readRecord?_mapping (names : List String) (build? : Entries → Option σ) (m : Mapping) :
    readRecord? names build? (.mapping m) = (keyed? names m).bind fun keyed =>
      if ((keyed.filter fun e => names.contains e.1).map (·.1)).Nodup then
        build? (keyed.filter fun e => names.contains e.1)
      else none := by
  rw [readRecord?]
  refine congrArg₂ Option.bind (congrArg (List.mapM · m) (funext fun e => ?_)) rfl
  obtain ⟨k, v⟩ := e
  cases k with
  | number n => simp [fieldOfKey?, Function.comp_def]
  | _ => rfl

namespace Call

/-- One call, where a value is not taken as a list of calls. -/
def readOne : Reader (List Call) := fun v =>
  match read? v with
  | some call => .ok [call]
  | none => .error (.mismatch (.ofVariants v))

theorem readSome_list (items : List Value) :
    readSome (.list items) = ((items.mapM read?).map .ok).getD (readOne (.list items)) := by
  rw [readSome, readOne]
  rcases items.mapM read? with _ | calls <;> rfl

theorem readSome_of_not_list {v : Value} (hn : v.kind ≠ .null) (hl : v.kind ≠ .list) :
    readSome v = readOne v := by
  cases v with
  | null => exact absurd rfl hn
  | list items => exact absurd rfl hl
  | _ => rfl

end Call

end BackupProfiles
