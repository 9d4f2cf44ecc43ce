import BackupProfiles.Files.Glob
import BackupProfiles.Profile.Anchor
import BackupProfiles.Proofs.Table.Lookup
import BackupProfiles.Proofs.Text.ByteOrder

/-!
# No source is lost when patterns are expanded

The matches of a pattern are whatever the disk gives: any list of paths, or nothing when the pattern
cannot be read. `Glob.Stands` says what a source comes to by them, and `Glob.expandBy` computes just
that (`Glob.stands_iff`). It is never nothing. A profile keeps what its sources come to beside the
sources and changes in nothing else (`Profile.expandSources_eq`); it is expanded from the sources
and never from what they came to, and anchoring leaves both alone, so expanding again and anchoring
before or after make no difference (`Profile.expandSources_twice`, `Profile.expandSources_anchor`).
-/

namespace BackupProfiles

namespace Glob

variable {found? : String → Option (List String)} {source : String} {block : List String}

/-- A text without the signs of a pattern. -/
def IsPlain (text : String) : Prop :=
  '*' ∉ text.toList ∧ '?' ∉ text.toList ∧ '[' ∉ text.toList

instance (text : String) : Decidable (IsPlain text) := instDecidableAnd

theorem isPattern_eq_false_iff {text : String} : isPattern text = false ↔ IsPlain text := by
  simp only [IsPlain, isPattern, isSign, List.any_eq_false, Bool.or_eq_true, beq_iff_eq, not_or]
  constructor
  · intro h
    exact ⟨fun hc => (h _ hc).1.1 rfl, fun hc => (h _ hc).1.2 rfl, fun hc => (h _ hc).2 rfl⟩
  · rintro ⟨hrun, hany, hclass⟩ c hc
    exact ⟨⟨fun h => hrun (h ▸ hc), fun h => hany (h ▸ hc)⟩, fun h => hclass (h ▸ hc)⟩

/-- What a source stands for, by the matches that patterns have: itself when it has no sign of a
pattern, when it is no valid pattern and when it has no matches, and else its matches, in the order
of their bytes. -/
inductive Stands (found? : String → Option (List String)) (source : String) : List String → Prop
  | plain (h : IsPlain source) : Stands found? source [source]
  | invalid (h : found? source = none) : Stands found? source [source]
  | unmatched (h : found? source = some []) : Stands found? source [source]
  | matched {paths block : List String} (hsign : ¬ IsPlain source)
    (hfound : found? source = some paths) (hne : paths ≠ []) (hperm : block.Perm paths)
    (hsorted : block.Pairwise fun a b => Text.bytes a ≤ Text.bytes b) : Stands found? source block

theorem expandBy_eq_self (h : isPattern source = false ∨ (found? source).getD [] = []) :
    expandBy found? source = [source] := by
  rcases h with h | h
  · rw [expandBy, h]
    rfl
  · rw [expandBy, h, ite_self]

theorem expandBy_eq_mergeSort {paths : List String} (hsign : isPattern source = true)
    (hfound : found? source = some paths) (hne : paths ≠ []) :
    expandBy found? source = paths.mergeSort := by
  obtain ⟨path, rest, rfl⟩ := List.exists_cons_of_ne_nil hne
  rw [expandBy, hsign, hfound]
  rfl

theorem stands_expandBy (found? : String → Option (List String)) (source : String) :
    Stands found? source (expandBy found? source) := by
  rcases hsign : isPattern source
  · rw [expandBy_eq_self (Or.inl hsign)]
    exact .plain (isPattern_eq_false_iff.1 hsign)
  · rcases hfound : found? source with _ | paths
    · rw [expandBy_eq_self (Or.inr (by rw [hfound]; rfl))]
      exact .invalid hfound
    · rcases eq_or_ne paths [] with rfl | hne
      · rw [expandBy_eq_self (Or.inr (by rw [hfound]; rfl))]
        exact .unmatched hfound
      · rw [expandBy_eq_mergeSort hsign hfound hne]
        have hsigns : ¬ IsPlain source := fun h =>
          Bool.false_ne_true ((isPattern_eq_false_iff.2 h).symm.trans hsign)
        refine .matched hsigns hfound hne (List.mergeSort_perm paths _) ?_
        exact (Table.pairwise_mergeSort paths).imp Text.bytes_le_iff.2

/-- A source stands for one list of paths. -/
theorem stands_iff : Stands found? source block ↔ expandBy found? source = block := by
  refine ⟨fun h => ?_, fun h => h ▸ stands_expandBy found? source⟩
  cases h with
  | plain h => exact expandBy_eq_self (Or.inl (isPattern_eq_false_iff.2 h))
  | invalid h => exact expandBy_eq_self (Or.inr (by rw [h]; rfl))
  | unmatched h => exact expandBy_eq_self (Or.inr (by rw [h]; rfl))
  | matched hsign hfound hne hperm hsorted =>
    rw [expandBy_eq_mergeSort (Bool.of_not_eq_false (mt isPattern_eq_false_iff.1 hsign)) hfound hne]
    refine ((List.mergeSort_perm _ _).trans hperm.symm).eq_of_pairwise ?_
      (Table.pairwise_mergeSort _) (hsorted.imp Text.bytes_le_iff.1)
    exact fun a b _ _ hab hba => String.le_antisymm hab hba

theorem Stands.ne_nil (h : Stands found? source block) : block ≠ [] := by
  cases h with
  | plain | invalid | unmatched => exact List.cons_ne_nil _ _
  | matched _ _ hne hperm _ =>
    rintro rfl
    exact hne hperm.nil_eq.symm

end Glob

namespace Profile

variable (find : String → List String) (p : Profile)

/-- Expanding writes what the sources come to and nothing else. -/
theorem expandSources_eq {b : BackupSection} (hb : p.backup? = some b) :
    p.expandSources find = { p with backup? := some { b with
      expansion? := some (b.source.map fun pattern => ⟨pattern, find pattern⟩) } } := by
  rw [expandSources, hb]
  rfl

theorem expandSources_twice : (p.expandSources find).expandSources find = p.expandSources find := by
  simp only [expandSources, Option.map_map]
  rfl

theorem expandSources_anchor (home? : Option String) (root : String) :
    (p.anchor home? root).expandSources find = (p.expandSources find).anchor home? root := by
  simp only [expandSources, anchor, anchorWith, Option.map_map]
  rfl

/-- Expanding keeps every source, in its place and with at least one path: itself, or what it
matches, whatever the disk is. Nothing else in a profile changes, expanding it again changes
nothing, and it may as well be anchored first. -/
theorem expandSources_keeps_sources {p : Profile} {b : BackupSection} (hb : p.backup? = some b)
    (found? : String → Option (List String)) :
    let q := p.expandSources (Glob.expandBy found?)
    (∃ blocks : List ExpandedSource,
      q = { p with backup? := some { b with expansion? := some blocks } } ∧
      blocks.map (·.pattern) = b.source ∧
      (∀ e ∈ blocks, e.paths ≠ [] ∧ Glob.Stands found? e.pattern e.paths) ∧
      q.backupPaths = (blocks.map (·.paths)).flatten) ∧
    q.expandSources (Glob.expandBy found?) = q ∧
    ∀ (home? : Option String) (root : String),
      (p.anchor home? root).expandSources (Glob.expandBy found?) = q.anchor home? root := by
  refine ⟨⟨_, expandSources_eq _ p hb, ?_, ?_, ?_⟩, expandSources_twice _ p,
    expandSources_anchor _ p⟩
  · rw [List.map_map]
    exact List.map_id _
  · intro e he
    obtain ⟨pattern, -, rfl⟩ := List.mem_map.1 he
    have hstands := Glob.stands_expandBy found? pattern
    exact ⟨hstands.ne_nil, hstands⟩
  · rw [expandSources_eq _ p hb]
    exact List.flatMap_def

theorem expandSources_keeps_sources_data :
    let s : Surroundings := ⟨"/data", none, .folder [("data", .folder
      [("b.txt", .plain ""), ("a.txt", .plain ""), ("c.log", .plain "")])]⟩
    let b := { BackupSection.empty with source := ["*.txt", "none-*", "c.log", "[x"] }
    let p := { (default : Profile) with backup? := some b }
    let q := p.expandSources (Glob.expand s)
    p.backup? = some b ∧ q.backupPaths = ["a.txt", "b.txt", "none-*", "c.log", "[x"] ∧
    q.expandSources (Glob.expand s) = q ∧
    (p.anchor none "/conf").expandSources (Glob.expand s) = q.anchor none "/conf" := by
  intro s b p q
  obtain ⟨⟨blocks, -, hpatterns, hstands, hpaths⟩, htwice, hanchor⟩ :=
    expandSources_keeps_sources (show p.backup? = some b from rfl) (Glob.found? s)
  have hblocks : blocks.map (·.paths) = b.source.map (Glob.expand s) := by
    rw [← hpatterns, List.map_map]
    exact List.map_congr_left fun e he => (Glob.stands_iff.1 (hstands e he).2).symm
  have htexts : Glob.expand s "*.txt" = ["a.txt", "b.txt"] :=
    Glob.stands_iff.1 (.matched (by decide) (show _ = some ["b.txt", "a.txt"] by decide) nofun
      (.swap _ _ _) (by decide))
  have hnone : Glob.expand s "none-*" = ["none-*"] := Glob.stands_iff.1 (.unmatched (by decide))
  have hlog : Glob.expand s "c.log" = ["c.log"] := Glob.stands_iff.1 (.plain (by decide))
  have hinvalid : Glob.expand s "[x" = ["[x"] := Glob.stands_iff.1 (.invalid (by decide))
  refine ⟨rfl, hpaths.trans ?_, htwice, hanchor none "/conf"⟩
  rw [hblocks]
  simp only [b, List.map_cons, List.map_nil, htexts, hnone, hlog, hinvalid]
  rfl

end Profile

end BackupProfiles
