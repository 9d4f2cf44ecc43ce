import BackupProfiles.Proofs.Reorder.Value

/-!
# Merging reordered bodies

Laying a body over a mapping looks at keys one by one, and the markers of a base act together
whatever their order, so reordered bodies over reordered mappings come to reordered results
(`overlay_reorders`). The walk from a profile to its last ancestor looks profiles up by their names
and only reads texts, so it goes the same way. Hence merged bodies of reordered profiles reorder
each other, and there is none for one exactly if there is none for the other
(`mergedBody_reorders`).
-/

namespace BackupProfiles

open Value

/-- The same error, or results that are related. -/
inductive Agree {ε α β : Type} (r : α → β → Prop) : Except ε α → Except ε β → Prop where
  | error (e : ε) : Agree r (.error e) (.error e)
  | ok {a : α} {b : β} (h : r a b) : Agree r (.ok a) (.ok b)

namespace Agree

variable {ε α β γ δ : Type} {r : α → β → Prop} {x : Except ε α} {y : Except ε β}

theorem of_error {e : ε} (h : Agree r x y) (hx : x = .error e) : y = .error e := by
  cases h with
  | error => rw [Except.error.inj hx]
  | ok => cases hx

theorem of_ok {a : α} (h : Agree r x y) (hx : x = .ok a) : ∃ b, y = .ok b ∧ r a b := by
  cases h with
  | error => cases hx
  | ok h =>
    cases hx
    exact ⟨_, rfl, h⟩

theorem map {q : γ → δ → Prop} {f : α → γ} {g : β → δ} (h : Agree r x y)
    (hr : ∀ a b, r a b → q (f a) (g b)) : Agree q (x.map f) (y.map g) := by
  cases h with
  | error e => exact .error e
  | ok h => exact .ok (hr _ _ h)

end Agree

section Values

variable {v w : Value} {v? w? front? back? : Option Value}

theorem items_reorders (h : Reorders v w) : List.Forall₂ Reorders v.items w.items := by
  rcases h.cases with rfl | ⟨xs, ys, rfl, rfl, hitems⟩ | ⟨m, n, rfl, rfl⟩ | ⟨tag, a, b, rfl, rfl, -⟩
  · exact List.forall₂_same.2 fun v _ => .refl v
  · exact hitems
  · exact .cons h .nil
  · exact .cons h .nil

theorem mapping?_getD (v : Value) : v.mapping?.getD [] = v.mappingEntries := by
  cases v <;> rfl

theorem mappingEntries_reorders (h : Reorders v w) :
    Reorders (.mapping v.mappingEntries) (.mapping w.mappingEntries) := by
  rcases h.cases with rfl | ⟨xs, ys, rfl, rfl, -⟩ | ⟨m, n, rfl, rfl⟩ | ⟨tag, a, b, rfl, rfl, -⟩
  · exact .refl _
  · exact .refl _
  · exact h
  · exact .refl _

end Values

namespace Mapping

variable {s t body other : Mapping} {key : Value} {v? w? : Option Value}

theorem itemsOf_reorders (h : Option.Rel Reorders v? w?) :
    List.Forall₂ Reorders (itemsOf v?) (itemsOf w?) := by
  cases h with
  | none => exact .nil
  | some h => exact items_reorders h

theorem entries_reorders (h : Option.Rel Reorders v? w?) :
    Reorders (.mapping ((v?.map mappingEntries).getD []))
      (.mapping ((w?.map mappingEntries).getD [])) := by
  cases h with
  | none => exact .refl _
  | some h => exact mappingEntries_reorders h

theorem gathered_reorders {front? front'? held? held'? back? back'? : Option Value}
    (hf : Option.Rel Reorders front? front'?) (hh : Option.Rel Reorders held? held'?)
    (hb : Option.Rel Reorders back? back'?) :
    Option.Rel Reorders (gathered front? held? back?) (gathered front'? held'? back'?) := by
  have hall : List.Forall₂ Reorders (itemsOf front? ++ itemsOf held? ++ itemsOf back?)
      (itemsOf front'? ++ itemsOf held'? ++ itemsOf back'?) :=
    List.rel_append (List.rel_append (itemsOf_reorders hf) (itemsOf_reorders hh))
      (itemsOf_reorders hb)
  have hlist := Option.Rel.some (Reorders.list hall)
  cases hf with
  | none =>
    cases hb with
    | none => exact hh
    | some _ => exact hlist
  | some _ => exact hlist

theorem markerValue?_reorders (hb : body.Distinct)
    (h : Reorders (.mapping body) (.mapping other)) (marker : Marker) :
    Option.Rel Reorders (body.markerValue? marker) (other.markerValue? marker) := by
  unfold markerValue?
  split
  · exact h.get? hb _
  · exact .none

theorem applyMarkers_reorders (hs : (Value.mapping s).Tidy) (hp : (Value.mapping s).Plain)
    (hb : body.Distinct) (h : Reorders (.mapping s) (.mapping t))
    (hbody : Reorders (.mapping body) (.mapping other)) :
    Reorders (.mapping (applyMarkers s body)) (.mapping (applyMarkers t other)) := by
  have ht := h.tidy hs
  refine .of_get? (tidy_applyMarkers hs).distinct (tidy_applyMarkers ht).distinct
    (plain_applyMarkers hp) (plain_applyMarkers (h.plain hp)) fun base => ?_
  rw [get?_applyMarkers_base hs.distinct hb,
    get?_applyMarkers_base ht.distinct (hbody.distinct hb)]
  exact gathered_reorders (markerValue?_reorders hb hbody _) (h.get? hs.distinct _)
    (markerValue?_reorders hb hbody _)

theorem overlayPlain_reorders (hs : (Value.mapping s).Tidy) (hp : (Value.mapping s).Plain)
    (hb : body.Distinct) (hq : (Value.mapping body).Plain) (h : Reorders (.mapping s) (.mapping t))
    (hbody : Reorders (.mapping body) (.mapping other))
    (hvalue : ∀ e ∈ body, ∀ w, Reorders e.2 w →
      Reorders (overlayValue (s.get? e.1) e.2) (overlayValue (t.get? e.1) w)) :
    Reorders (.mapping (overlayPlain s body)) (.mapping (overlayPlain t other)) := by
  have ht := h.tidy hs
  refine .of_get? hs.distinct.overlayPlain ht.distinct.overlayPlain
    (plain_overlayPlain body hq hp) (plain_overlayPlain other (hbody.plain hq) (h.plain hp))
    fun name => ?_
  have hget := h.get? hs.distinct (.string name)
  by_cases hk : Marker.ofKey? (.string name) = none
  · rw [get?_overlayPlain hb hk, get?_overlayPlain (hbody.distinct hb) hk]
    rcases hbody.get?_cases hb (.string name) with ⟨hv, hw⟩ | ⟨v, w, hv, hw, hvw⟩
    · rw [hv, hw]
      exact hget
    · rw [hv, hw]
      exact .some (hvalue (.string name, v) (mem_of_get? hv) w hvw)
  · rw [get?_overlayPlain_marker hk, get?_overlayPlain_marker hk]
    exact hget

theorem overlayValue_reorders {v w : Value} (hv : v.Tidy) (hq : v.Plain) (h : Reorders v w)
    (hold : Option.Rel Reorders v? w?) (ht : ∀ u, v? = some u → u.Tidy)
    (hp : ∀ u, v? = some u → u.Plain) : Reorders (overlayValue v? v) (overlayValue w? w) := by
  induction hv generalizing w v? w? with
  | leaf hleaf =>
    rw [overlayValue_of_not_mapping _ hleaf,
      overlayValue_of_not_mapping _ (h.mapping?_eq_none hleaf)]
    exact h
  | @mapping body keys values ih =>
    obtain ⟨other, rfl, -⟩ := h.alike
    have hs := tidy_entries ht
    have hplain := plain_entries hp
    have hentries := entries_reorders hold
    rw [overlayValue, overlayValue]
    refine applyMarkers_reorders (tidy_overlayPlain body hs) (plain_overlayPlain body hq hplain)
      keys ?_ h
    exact overlayPlain_reorders hs hplain keys hq hentries h fun e he w hw =>
      ih e he (hq.mem he) hw (hentries.get? hs.distinct e.1) (fun u hu => hs.get? hu)
        fun u hu => hplain.get? hu

theorem overlay_reorders (hs : (Value.mapping s).Tidy) (hp : (Value.mapping s).Plain)
    (hb : (Value.mapping body).Tidy) (hq : (Value.mapping body).Plain)
    (h : Reorders (.mapping s) (.mapping t)) (hbody : Reorders (.mapping body) (.mapping other)) :
    Reorders (.mapping (s.overlay body)) (.mapping (t.overlay other)) := by
  refine applyMarkers_reorders (tidy_overlayPlain body hs) (plain_overlayPlain body hq hp)
    hb.distinct ?_ hbody
  exact overlayPlain_reorders hs hp hb.distinct hq h hbody fun e he w hw =>
    overlayValue_reorders (hb.mem he) (hq.mem he) hw (h.get? hs.distinct e.1)
      (fun u hu => hs.get? hu) fun u hu => hp.get? hu

theorem without_reorders (h : Reorders (.mapping s) (.mapping t)) (key : Value) :
    Reorders (.mapping (s.without key)) (.mapping (t.without key)) := by
  obtain ⟨k, hk, hperm⟩ := h.entries_perm
  have hkept : List.Forall₂ SameEntry (s.without key) (Mapping.without k key) :=
    List.rel_filter (fun e f hef => by simp only [hef.1]) hk
  exact (Reorders.entries hkept).trans (.keys (hperm.filter _))

theorem erase_reorders (hs : s.Distinct) (h : Reorders (.mapping s) (.mapping t)) (key : Value) :
    Reorders (.mapping (s.erase key)) (.mapping (t.erase key)) := by
  have hrest := without_reorders h key
  exact (Reorders.keys (erase_perm hs)).trans
    (hrest.trans (.keys (erase_perm (h.distinct hs)).symm))

end Mapping

section Layers

/-- Layers with reordered bodies. -/
def Layer.Reorders (a b : Layer) : Prop := Value.Reorders (.mapping a.body) (.mapping b.body)

variable {layers others : List Layer} {left other body : Mapping} {v w : Value} {name : String}

theorem mergeLayers_reorders (ht : ∀ layer ∈ layers, (Value.mapping layer.body).Tidy)
    (hp : ∀ layer ∈ layers, (Value.mapping layer.body).Plain)
    (h : List.Forall₂ Layer.Reorders layers others) :
    Value.Reorders (.mapping (mergeLayers layers)) (.mapping (mergeLayers others)) := by
  induction h with
  | nil => exact .refl _
  | @cons a b older others hab _ ih =>
    rw [List.forall_mem_cons] at ht hp
    rw [mergeLayers_cons, mergeLayers_cons]
    have htidy := tidy_mergeLayers older
    have hplain := (plain_mergeLayers hp.2).of_subset (Mapping.subset_erase _ descriptionKey)
    exact Mapping.overlay_reorders (htidy.erase _) hplain ht.1 hp.1
      (Mapping.erase_reorders htidy.distinct (ih ht.2 hp.2) _) hab

theorem bodyOf_reorders (h : Value.Reorders v w) (name : String) :
    Agree (fun a b => Value.Reorders (.mapping a) (.mapping b)) (bodyOf name v)
      (bodyOf name w) := by
  rcases h.cases with rfl | ⟨xs, ys, rfl, rfl, -⟩ | ⟨m, n, rfl, rfl⟩ | ⟨tag, a, b, rfl, rfl, -⟩
  · rcases bodyOf name v with e | body
    · exact .error e
    · exact .ok (.refl _)
  · exact .error _
  · exact .ok h
  · exact .error _

theorem parentName?_reorders (hb : body.Distinct)
    (h : Value.Reorders (.mapping body) (.mapping other)) :
    parentName? body = parentName? other := by
  unfold parentName?
  rcases h.get?_cases hb (.string "inherit") with ⟨hv, hw⟩ | ⟨v, w, hv, hw, hvw⟩
  · rw [hv, hw]
  · rw [hv, hw]
    rcases hvw.cases with rfl | ⟨xs, ys, rfl, rfl, -⟩ | ⟨m, n, rfl, rfl⟩ |
      ⟨tag, a, b, rfl, rfl, -⟩
    all_goals rfl

/-- The walk from a profile to its ancestors goes the same way. -/
theorem ancestryFrom_reorders (hl : (Value.mapping left).Tidy)
    (h : Value.Reorders (.mapping left) (.mapping other)) (visited : List String) (name : String) :
    Agree (List.Forall₂ Layer.Reorders) (ancestryFrom left visited name)
      (ancestryFrom other visited name) := by
  fun_induction ancestryFrom left visited name generalizing other with
  | case1 left visited name hv =>
    rw [ancestryFrom_of_mem (by simpa using hv)]
    exact .error _
  | case2 left visited name hv hnone =>
    rcases h.get?_cases hl.distinct (.string name) with ⟨-, hw⟩ | ⟨v, w, hsome, -⟩
    · rw [ancestryFrom_of_none (by simpa using hv) hw]
      exact .error _
    · rw [hnone] at hsome
      cases hsome
  | case3 left visited name hv v hsome why hb =>
    obtain ⟨w, hw, hvw⟩ := h.exists_get? hl.distinct hsome
    rw [ancestryFrom_of_error (by simpa using hv) hw ((bodyOf_reorders hvw name).of_error hb)]
    exact .error _
  | case4 left visited name hv v hsome body hb hp =>
    obtain ⟨w, hw, hvw⟩ := h.exists_get? hl.distinct hsome
    obtain ⟨body', hb', hbody⟩ := (bodyOf_reorders hvw name).of_ok hb
    have htidy := tidy_bodyOf (hl.get? hsome) hb
    rw [ancestryFrom_last (by simpa using hv) hw hb' (parentName?_reorders htidy.distinct hbody ▸ hp)]
    exact .ok (.cons hbody .nil)
  | case5 left visited name hv v hsome body hb parent hp ih =>
    obtain ⟨w, hw, hvw⟩ := h.exists_get? hl.distinct hsome
    obtain ⟨body', hb', hbody⟩ := (bodyOf_reorders hvw name).of_ok hb
    have htidy := tidy_bodyOf (hl.get? hsome) hb
    rw [ancestryFrom_parent (by simpa using hv) hw hb'
      (parentName?_reorders htidy.distinct hbody ▸ hp)]
    have hrest := ih (hl.filter _) (Mapping.without_reorders h _)
    exact hrest.map fun _ _ hlayers => .cons hbody hlayers

/-- Merged bodies of reordered profiles. -/
theorem mergedBody_reorders {profiles : Mapping} (hp : (Value.mapping profiles).Tidy)
    (hq : (Value.mapping profiles).Plain)
    (h : Value.Reorders (.mapping profiles) (.mapping other)) (name : String) :
    Agree (fun a b => Value.Reorders (.mapping a) (.mapping b)) (mergedBody profiles name)
      (mergedBody other name) := by
  have hwalk := ancestryFrom_reorders hp h [] name
  unfold mergedBody ancestry
  rcases ha : ancestryFrom profiles [] name with e | layers
  · rw [hwalk.of_error ha]
    exact .error e
  · obtain ⟨others, ho, hlayers⟩ := hwalk.of_ok ha
    rw [ho]
    refine .ok (mergeLayers_reorders (fun layer hl => ?_) (fun layer hl => ?_) hlayers)
    · obtain ⟨e, he, hb⟩ := (layers_of_ancestryFrom ha).2 layer hl
      exact tidy_bodyOf (hp.mem he) hb
    · obtain ⟨e, he, hb⟩ := (layers_of_ancestryFrom ha).2 layer hl
      exact plain_bodyOf (hq.mem he) hb

end Layers

end BackupProfiles
