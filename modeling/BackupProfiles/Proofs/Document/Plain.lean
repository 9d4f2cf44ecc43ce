import BackupProfiles.Proofs.Value.Plain

/-!
# Documents without tags

Two of the formats have no tags, and their keys are texts: what is read from them is plain
(`plain_of_parse`). Each reader is shown to yield plain values from what the readers below it yield.
-/

namespace BackupProfiles

/-- Whatever a partial function comes to is good. -/
def Yields {β : Type} (good : β → Prop) (o : Option β) : Prop := ∀ b ∈ o, good b

namespace Yields

variable {β γ : Type} {good : β → Prop} {fine : γ → Prop} {o : Option β}

theorem none : Yields good .none := by
  intro b hb
  cases hb

theorem some {b : β} (h : good b) : Yields good (.some b) := by
  intro c hc
  rwa [← Option.some.inj hc]

theorem any (o : Option β) : Yields (fun _ => True) o := fun _ _ => trivial

theorem bind {f : β → Option γ} (h : Yields good o) (hf : ∀ b, good b → Yields fine (f b)) :
    Yields fine (o.bind f) := by
  intro c hc
  obtain ⟨b, hb, hc⟩ := Option.bind_eq_some_iff.1 hc
  exact hf b (h b hb) c hc

theorem map {f : β → γ} (h : Yields good o) (hf : ∀ b, good b → fine (f b)) :
    Yields fine (o.map f) := by
  intro c hc
  obtain ⟨b, hb, rfl⟩ := Option.map_eq_some_iff.1 hc
  exact hf b (h b hb)

theorem or {p : Option β} (ho : Yields good o) (hp : Yields good p) : Yields good (o.or p) := by
  cases o with
  | none => exact hp
  | some b => exact ho

theorem ite {c : Prop} [Decidable c] {p : Option β} (ho : Yields good o) (hp : Yields good p) :
    Yields good (if c then o else p) := by
  split
  · exact ho
  · exact hp

theorem foldlM {α : Type} {f : β → α → Option β} {items : List α}
    (hf : ∀ a ∈ items, ∀ b, good b → Yields good (f b a)) {b : β} (h : good b) :
    Yields good (items.foldlM f b) := by
  induction items generalizing b with
  | nil => exact .some h
  | cons a rest ih =>
    rw [List.forall_mem_cons] at hf
    exact (hf.1 b h).bind fun c hc => ih hf.2 hc

end Yields

open Value

namespace Json

mutual

theorem plain_readValue? : ∀ steps depth cs,
    Yields (fun r => r.1.Plain) (readValue? steps depth cs)
  | 0, _, _ => .none
  | steps + 1, depth, cs => by
    rw [readValue?]
    split
    · exact .none
    · exact (Yields.any _).map fun _ _ => .leaf rfl rfl
    · split
      · exact .none
      · exact .some (.leaf rfl rfl)
      · exact (Yields.any _).map fun _ _ => .leaf rfl rfl
    · split
      · exact .none
      · exact .some .nil
      · exact (plain_readEntries? steps _ _).map fun _ h => h
    all_goals exact (Yields.any _).map fun _ _ => .leaf rfl rfl

theorem plain_readEntries? : ∀ steps depth cs,
    Yields (fun r => (Value.mapping r.1).Plain) (readEntries? steps depth cs)
  | 0, _, _ => .none
  | steps + 1, depth, cs => by
    rw [readEntries?]
    split
    · refine (Yields.any _).bind fun (key, rest) _ => ?_
      dsimp only
      split
      · refine (plain_readValue? steps depth _).bind fun (value, rest) hv => ?_
        dsimp only
        split
        · exact (plain_readEntries? steps depth _).bind fun _ h => .some (hv.cons h)
        · exact .some (hv.cons .nil)
        · exact .none
      · exact .none
    · exact .none

end

theorem plain_read? (text : String) : Yields Plain (read? text) := by
  rw [read?]
  have hv := plain_readValue? (2 * text.toList.length + 2) depthBound text.toList
  split
  · rename_i value rest h
    split
    · exact .some (hv _ h)
    · exact .none
  · exact .none

end Json

namespace Toml

/-- Every value in a tree of tables is plain. -/
inductive Tree.Plain : Tree → Prop where
  | leaf {v : Value} (h : v.Plain) : Plain (.leaf v)
  | table {opening : Opening} {es : Entries} (h : ∀ e ∈ es, Plain e.2) : Plain (.table opening es)
  | tables {earlier : List Entries} {last : Entries} (h : ∀ e ∈ last, Plain e.2) :
    Plain (.tables earlier last)

/-- The entries of a table whose values are plain. -/
def Entries.Plain (es : Entries) : Prop := ∀ e ∈ es, e.2.Plain

namespace Tree

variable {es : Entries} {key : String} {t : Tree}

theorem plain_of_find? (h : es.Plain) (ht : find? key es = some t) : t.Plain := by
  induction es with
  | nil => simp [find?] at ht
  | cons e rest ih =>
    rw [Entries.Plain, List.forall_mem_cons] at h
    rw [find?, List.lookup_cons] at ht
    split at ht
    · rw [← Option.some.inj ht]
      exact h.1
    · exact ih h.2 ht

theorem plain_append (h : es.Plain) (ht : t.Plain) : Entries.Plain (es ++ [(key, t)]) := by
  intro e he
  rcases List.mem_append.1 he with he | he
  · exact h e he
  · rw [List.mem_singleton.1 he]
    exact ht

theorem plain_replace (h : es.Plain) (ht : t.Plain) : (replace key t es).Plain := by
  intro e he
  obtain ⟨old, hold, rfl⟩ := List.mem_map.1 he
  split
  · exact ht
  · exact h old hold

theorem plain_erase (h : es.Plain) (key : String) : (erase key es).Plain :=
  fun e he => h e (List.mem_filter.1 he).1

theorem plain_modify {change : Opening → Entries → Option Entries}
    (hc : ∀ opening es, es.Plain → Yields Entries.Plain (change opening es)) (by_ : Opening) :
    ∀ (path : List String) (opening : Opening) (es : Entries), es.Plain →
      Yields Entries.Plain (modify change by_ path opening es)
  | [], opening, es, h => by
    rw [modify]
    exact hc opening es h
  | key :: path, opening, es, h => by
    rw [modify]
    split
    · exact (plain_modify hc by_ path by_ [] (by simp [Entries.Plain])).map fun _ hi =>
        plain_append h (.table hi)
    · exact .none
    · rename_i earlier last hf
      cases plain_of_find? h hf with
      | tables hl =>
        exact (plain_modify hc by_ path .stated last hl).map fun _ hi =>
          plain_replace h (.tables hi)
    · rename_i opened inner hf
      cases plain_of_find? h hf with
      | table ht =>
        split
        · exact .none
        · exact (plain_modify hc by_ path opened inner ht).map fun _ hi =>
            plain_replace h (.table hi)

theorem plain_addEntry {v : Value} (hv : v.Plain) (path : List String) (key : String)
    (opening : Opening) (es : Entries) (h : es.Plain) :
    Yields Entries.Plain (addEntry path key v opening es) := by
  rw [addEntry]
  split
  · exact .none
  · exact .some (plain_append h (.leaf hv))

theorem plain_addValue {v : Value} (hv : v.Plain) (path : List String) (key : String)
    (opening : Opening) (es : Entries) (h : es.Plain) :
    Yields Entries.Plain (addValue path key v opening es) :=
  plain_modify (plain_addEntry hv path key) .dotted path opening es h

theorem plain_openTable (key : String) (opening : Opening) (es : Entries) (h : es.Plain) :
    Yields Entries.Plain (openTable key opening es) := by
  rw [openTable]
  split
  · exact .some (plain_append h (.table (by simp)))
  · rename_i inner hf
    cases plain_of_find? h hf with
    | table ht => exact .some (plain_append (plain_erase h key) (.table ht))
  · exact .none

theorem plain_openItem (key : String) (opening : Opening) (es : Entries) (h : es.Plain) :
    Yields Entries.Plain (openItem key opening es) := by
  rw [openItem]
  split
  · exact .some (plain_append h (.tables (by simp)))
  · exact .some (plain_replace h (.tables (by simp)))
  · exact .none

mutual

theorem plain_toValue : ∀ t : Tree, t.Plain → (toValue t).Plain
  | .leaf v, .leaf h => by rwa [toValue]
  | .table _ es, .table h => by
    rw [toValue]
    exact plain_entriesToMapping es h
  | .tables _ _, _ => by
    rw [toValue]
    exact .leaf rfl rfl

theorem plain_entriesToMapping : ∀ es : List (String × Tree), Entries.Plain es →
    (Value.mapping (entriesToMapping es)).Plain
  | [], _ => by
    rw [entriesToMapping]
    exact .nil
  | (key, t) :: rest, h => by
    rw [Entries.Plain, List.forall_mem_cons] at h
    rw [entriesToMapping]
    exact (plain_toValue t h.1).cons (plain_entriesToMapping rest h.2)

end

end Tree

section Values

/-- A value that is read is plain. -/
abbrev PlainRead (r : Value × List Char) : Prop := r.1.Plain

theorem plain_moment (text : List Char) : (moment text).Plain := by
  exact (Plain.leaf rfl rfl : (Value.string _).Plain).cons .nil

theorem plain_word (negative : Bool) (n : Nat) : Yields Plain (word negative n) :=
  .ite (.some (.leaf rfl rfl)) .none

theorem plain_float (negative : Bool) (digits : List Char) (exponent : Int) :
    Yields Plain (float negative digits exponent) :=
  .ite .none (.some (.leaf rfl rfl))

theorem plain_readRadix? (radix : Nat) (cs : List Char) :
    Yields PlainRead (readRadix? radix cs) :=
  (Yields.any _).bind fun _ _ => (plain_word _ _).map fun _ h => h

theorem plain_readInteger? (cs : List Char) : Yields PlainRead (readInteger? cs) := by
  unfold readInteger?
  split
  · exact plain_readRadix? _ _
  · exact plain_readRadix? _ _
  · exact plain_readRadix? _ _
  · exact (Yields.any _).bind fun _ _ => (plain_word _ _).map fun _ h => h

theorem plain_readFraction? (negative : Bool) (whole cs : List Char) :
    Yields PlainRead (readFraction? negative whole cs) := by
  unfold readFraction?
  split
  · refine (Yields.any _).bind fun (places, rest) _ => ?_
    dsimp only
    split
    · split
      · exact (Yields.any _).bind fun _ _ => (plain_float _ _ _).map fun _ h => h
      · exact (plain_float _ _ _).map fun _ h => h
    · exact (plain_float _ _ _).map fun _ h => h
  · split
    · exact (Yields.any _).bind fun _ _ => (plain_float _ _ _).map fun _ h => h
    · exact .none
  · exact .none

theorem plain_readFloat? (cs : List Char) : Yields PlainRead (readFloat? cs) := by
  unfold readFloat?
  rcases readSign cs with ⟨negative, rest⟩
  dsimp only
  split
  · exact .some (.leaf rfl rfl)
  · exact .some (.leaf rfl rfl)
  · exact (Yields.any _).bind fun _ _ => plain_readFraction? _ _ _

theorem plain_readMoment? (cs : List Char) : Yields PlainRead (readMoment? cs) := by
  unfold readMoment?
  split
  · exact .some (plain_moment _)
  · exact (Yields.any _).map fun _ _ => plain_moment _

theorem plain_readWord? (word : String) {v : Value} (hv : v.Plain) (cs : List Char) :
    Yields PlainRead (readWord? word v cs) :=
  .ite (.some hv) .none

theorem plain_readScalar? (cs : List Char) : Yields PlainRead (readScalar? cs) := by
  unfold readScalar?
  split
  · exact (Yields.any _).map fun _ _ => .leaf rfl rfl
  · exact (Yields.any _).map fun _ _ => .leaf rfl rfl
  · exact plain_readWord? _ (.leaf rfl rfl) _
  · exact plain_readWord? _ (.leaf rfl rfl) _
  · exact ((plain_readMoment? cs).or (plain_readFloat? cs)).or (plain_readInteger? cs)

theorem plain_inlineTable {pairs : List (List String × Value)} (h : ∀ pair ∈ pairs, pair.2.Plain) :
    Yields Plain (inlineTable pairs) := by
  have hempty : Entries.Plain [] := by simp [Entries.Plain]
  refine (Yields.foldlM (fun pair hp es hes => ?_) hempty).map Tree.plain_entriesToMapping
  split
  · exact .none
  · exact Tree.plain_addValue (h pair hp) _ _ _ _ hes

mutual

theorem plain_readValue? : ∀ steps depth cs, Yields PlainRead (readValue? steps depth cs)
  | 0, _, _ => .none
  | steps + 1, depth, cs => by
    unfold readValue?
    split
    · split
      · exact .none
      · exact (Yields.any _).map fun _ _ => .leaf rfl rfl
    · split
      · exact .none
      · exact .some .nil
      · exact (plain_readPairs? steps _ _).bind fun _ h => (plain_inlineTable h).map fun _ h => h
    · exact plain_readScalar? cs

theorem plain_readPairs? : ∀ steps depth cs,
    Yields (fun r => ∀ pair ∈ r.1, pair.2.Plain) (readPairs? steps depth cs)
  | 0, _, _ => .none
  | steps + 1, depth, cs => by
    unfold readPairs?
    split
    · refine (plain_readValue? steps depth _).bind fun (v, rest) hv => ?_
      dsimp only
      split
      · exact (plain_readPairs? steps depth _).map fun _ h => List.forall_mem_cons.2 ⟨hv, h⟩
      · exact .some (List.forall_mem_cons.2 ⟨hv, by simp⟩)
      · exact .none
    · exact .none

end

end Values

section Lines

variable {s : State}

/-- A state that is read has a plain tree. -/
abbrev PlainState (r : State × List Char) : Prop := r.1.root.Plain

theorem plain_enter {open_ : String → Opening → Entries → Option Entries}
    (ho : ∀ key opening es, es.Plain → Yields Entries.Plain (open_ key opening es))
    (h : s.root.Plain) (path : List String) :
    Yields (fun s => s.root.Plain) (s.enter path open_) := by
  rw [State.enter]
  split
  · exact .none
  · exact (Tree.plain_modify (ho _) .passed _ .stated _ h).map fun _ hr => hr

theorem plain_inHeader {change : Opening → Entries → Option Entries} (h : s.root.Plain)
    (hc : ∀ opening es, es.Plain → Yields Entries.Plain (change opening es)) :
    Yields (fun s => s.root.Plain) (s.inHeader change) :=
  (Tree.plain_modify hc .passed _ .stated _ h).map fun _ hr => hr

theorem plain_readHeader? (h : s.root.Plain) (cs : List Char) :
    Yields PlainState (readHeader? s cs) := by
  unfold readHeader?
  split
  · split
    · exact (plain_enter Tree.plain_openItem h _).map fun _ hs => hs
    · exact .none
  · split
    · exact (plain_enter Tree.plain_openTable h _).map fun _ hs => hs
    · exact .none

theorem plain_readAssignment? (h : s.root.Plain) (cs : List Char) :
    Yields PlainState (readAssignment? s cs) := by
  unfold readAssignment?
  split
  · refine (plain_readValue? _ _ _).bind fun (v, rest) hv => ?_
    dsimp only
    split
    · exact .none
    · exact (plain_inHeader h (Tree.plain_addValue hv _ _)).map fun _ hs => hs
  · exact .none

theorem plain_readLines : ∀ (n : Nat) (s : State) (cs : List Char), s.root.Plain →
    Yields (fun s => s.root.Plain) (readLines n s cs)
  | 0, _, _, _ => .none
  | n + 1, s, cs, h => by
    unfold readLines
    split
    · exact .some h
    · exact (plain_readHeader? h _).bind fun _ hs => (Yields.any _).bind fun _ _ =>
        plain_readLines n _ _ hs
    · exact (Yields.any _).bind fun _ _ => plain_readLines n s _ h
    · split
      · exact plain_readLines n s _ h
      · exact (plain_readAssignment? h _).bind fun _ hs => (Yields.any _).bind fun _ _ =>
          plain_readLines n _ _ hs

theorem plain_read? (text : String) : Yields Plain (read? text) :=
  (plain_readLines _ ⟨[], []⟩ _ (by simp [Entries.Plain])).map fun s hs =>
    Tree.plain_entriesToMapping s.root hs

end Lines

end Toml

/-- The formats without tags. -/
def Format.IsPlain (format : Format) : Prop := format = .json ∨ format = .toml

theorem Document.plain_of_parse {format : Format} {text : String} {d : Document}
    (hf : format.IsPlain) (h : parse format text = .ok d) : (Value.mapping d.root).Plain := by
  have hread : Yields Plain (readValue? format text) := by
    intro v hv
    have hv := Option.eq_some_of_filter_eq_some hv
    rcases hf with rfl | rfl
    · exact Json.plain_read? text v hv
    · exact Toml.plain_read? text v hv
  unfold parse at h
  split at h
  · cases h
  · rename_i root hr
    simp only [Except.ok.injEq] at h
    subst h
    exact hread _ hr
  · simp only [Except.ok.injEq] at h
    subst h
    exact .nil
  · cases h

end BackupProfiles
