import BackupProfiles.Proofs.Flags.Register
import Mathlib.Data.List.TakeWhile

/-!
# Reading arguments back

An argument holds the name of a flag behind two dashes and perhaps a value behind an equals sign.
Where names have no equals sign in them, the first one ends the name, whatever the value is. Reading
gives each name the values of its arguments (`ofArguments`). No name stands twice in flags that are
built by edits, so they are read back from their arguments and are equal when their arguments are
(`arguments_determine`).
-/

namespace BackupProfiles.Flags

/-- The name in an argument, with the value behind the first equals sign. -/
def readArgument (argument : String) : String × Option String :=
  let text := argument.toList.drop 2
  (String.ofList (text.takeWhile (· ≠ '=')),
    match text.dropWhile (· ≠ '=') with
    | [] => none
    | _ :: value => some (String.ofList value))

/-- Adds a value to those that its name has. -/
def collect (f : Flags) (named : String × Option String) : Flags :=
  f.add named.1 ((f.get? named.1).getD [] ++ named.2.toList)

def ofArguments (arguments : List String) : Flags :=
  (arguments.map readArgument).foldl collect empty

variable {f : Flags} {name : String}

theorem readArgument_name (h : '=' ∉ name.toList) : readArgument ("--" ++ name) = (name, none) := by
  have hall : ∀ c ∈ name.toList, decide (c ≠ '=') = true := fun c hc =>
    decide_eq_true fun heq => h (heq ▸ hc)
  have htext : ("--" ++ name).toList.drop 2 = name.toList := by simp
  simp only [readArgument, htext, List.takeWhile_eq_self_iff.2 hall,
    List.dropWhile_eq_nil_iff.2 hall, String.ofList_toList]

theorem readArgument_value (h : '=' ∉ name.toList) (value : String) :
    readArgument ("--" ++ name ++ "=" ++ value) = (name, some value) := by
  have hall : ∀ c ∈ name.toList, decide (c ≠ '=') = true := fun c hc =>
    decide_eq_true fun heq => h (heq ▸ hc)
  have htext : ("--" ++ name ++ "=" ++ value).toList.drop 2 = name.toList ++ '=' :: value.toList := by
    simp
  simp only [readArgument, htext, List.takeWhile_append_of_pos hall,
    List.dropWhile_append_of_pos hall]
  simp

theorem add_add (f : Flags) (name : String) (values others : List String) :
    (f.add name values).add name others = f.add name others := by
  rw [add, add, add, write_eq, write_eq, write_eq, writeEntry_writeEntry]

theorem collect_new (h : name ∉ f.names) (value? : Option String) :
    f.collect (name, value?) = f.add name value?.toList := by
  rw [collect, get?_eq_none_iff.2 h]
  rfl

/-- Values that are collected one by one follow those that stand there. -/
theorem foldl_collect_values (f : Flags) (name : String) (held values : List String) :
    (values.map fun v => (name, some v)).foldl collect (f.add name held) =
      f.add name (held ++ values) := by
  induction values generalizing held with
  | nil => rw [List.append_nil]; rfl
  | cons v rest ih =>
    have hstep : (f.add name held).collect (name, some v) = f.add name (held ++ [v]) := by
      rw [collect, get?_add, if_pos rfl, add_add]
      rfl
    rw [List.map_cons, List.foldl_cons, hstep, ih, List.append_assoc, List.singleton_append]

/-- The arguments of a flag give it back, at the end of flags that do not have its name. -/
theorem foldl_collect_argumentsOf (hname : '=' ∉ name.toList) (hf : name ∉ f.names)
    (values : List String) :
    ((argumentsOf name values).map readArgument).foldl collect f = f.add name values := by
  cases values with
  | nil =>
    show f.collect (readArgument ("--" ++ name)) = _
    rw [readArgument_name hname, collect_new hf]
    rfl
  | cons v rest =>
    have hread : (argumentsOf name (v :: rest)).map readArgument =
        (v :: rest).map fun v => (name, some v) := by
      rw [argumentsOf, List.map_map]
      · exact List.map_congr_left fun w _ => readArgument_value hname w
      · exact List.cons_ne_nil _ _
    rw [hread, List.map_cons, List.foldl_cons, collect_new hf]
    exact foldl_collect_values f name [v] rest

theorem foldl_collect_entries {entries : List (String × List String)}
    (hnodup : (f.names ++ entries.map (·.1)).Nodup) (hname : ∀ e ∈ entries, '=' ∉ e.1.toList) :
    ((entries.flatMap fun e => argumentsOf e.1 e.2).map readArgument).foldl collect f =
      ⟨f.entries ++ entries⟩ := by
  induction entries generalizing f with
  | nil => rw [List.append_nil]; rfl
  | cons e rest ih =>
    rw [List.forall_mem_cons] at hname
    have hnew : e.1 ∉ f.names := fun h =>
      (List.nodup_append.1 hnodup).2.2 _ h _ List.mem_cons_self rfl
    have hadd : f.add e.1 e.2 = ⟨f.entries ++ [e]⟩ := by
      rw [add, write_eq, writeEntry_of_notMem hnew]
    have hnames : (f.add e.1 e.2).names = f.names ++ [e.1] := by rw [names_add, if_neg hnew]
    rw [List.flatMap_cons, List.map_append, List.foldl_append,
      foldl_collect_argumentsOf hname.1 hnew, ih (by simpa [hnames] using hnodup) hname.2, hadd,
      List.append_assoc, List.singleton_append]

theorem ofArguments_arguments (hf : f.Distinct) (hn : ∀ name ∈ f.names, '=' ∉ name.toList) :
    ofArguments f.arguments = f :=
  foldl_collect_entries (f := empty) hf fun _ he => hn _ (List.mem_map_of_mem he)

/-- Flags that are built by edits and have no equals sign in their names are read back from their
arguments: the names in their order, and for each whether it has values and which. So no other such
flags have the same arguments. -/
theorem arguments_determine (edits others : List Edit)
    (hedits : ∀ name ∈ (empty.editAll edits).names, '=' ∉ name.toList)
    (hothers : ∀ name ∈ (empty.editAll others).names, '=' ∉ name.toList) :
    ofArguments (empty.editAll edits).arguments = empty.editAll edits ∧
      ((empty.editAll edits).arguments = (empty.editAll others).arguments →
        empty.editAll edits = empty.editAll others) := by
  have hread : ∀ edits : List Edit, (∀ name ∈ (empty.editAll edits).names, '=' ∉ name.toList) →
      ofArguments (empty.editAll edits).arguments = empty.editAll edits := fun edits h =>
    ofArguments_arguments (Represents.empty.editAll edits).distinct h
  refine ⟨hread edits hedits, fun heq => ?_⟩
  rw [← hread edits hedits, heq, hread others hothers]

/-- A flag without values beside one with an empty value and one with equals signs in its value, and
the same flags in another way. -/
def mixedValues : List Edit := [.addSwitch "quiet" true, .add "tag" ["", "a=b"],
  .addList "option" ["x=1=2"]]

def mixedValuesAgain : List Edit := [.addText "verbose" "1", .addList "tag" ["", "a=b"],
  .rename "verbose" "quiet", .add "quiet" [], .extend [.addText "option" "x=1=2"]]

theorem arguments_determine_mixedValues :
    ofArguments (empty.editAll mixedValues).arguments = empty.editAll mixedValues ∧
      empty.editAll mixedValues = empty.editAll mixedValuesAgain := by
  have hnames : (empty.editAll mixedValues).names = ["quiet", "tag", "option"] := by decide
  have hagain : (empty.editAll mixedValuesAgain).names = ["quiet", "tag", "option"] := by decide
  have hplain : ∀ name ∈ ["quiet", "tag", "option"], '=' ∉ name.toList := by simp
  obtain ⟨hread, hsame⟩ := arguments_determine mixedValues mixedValuesAgain
    (by rwa [hnames]) (by rwa [hagain])
  exact ⟨hread, hsame (by decide)⟩

/-- With an equals sign in a name the arguments do not tell where the name ends. -/
example : (empty.add "a=b" []).arguments = (empty.add "a" ["b"]).arguments := by decide

end BackupProfiles.Flags
