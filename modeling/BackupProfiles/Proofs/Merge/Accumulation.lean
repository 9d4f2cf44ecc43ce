import BackupProfiles.Proofs.Merge.Override

/-!
# Lists that grow along a chain

The markers of a base add to the list that the base stands for, layer after layer, the requested
one last. Only the layers since the base was last set count (`sinceSet`): of these the front markers
stand before the plain value, the nearest layer first, and the back markers behind it, the nearest
layer last (`accumulated`). A layer acts on a section as it acts on the whole body, as long as it
omits the section or holds a mapping there (`within_overlay`).
-/

namespace BackupProfiles

namespace Mapping

/-- The entries of the mapping at a path, none if there is no mapping. -/
def within : Mapping → List Value → Mapping
  | m, [] => m
  | m, key :: path => within (m.entriesAt key) path

/-- A body that has a mapping or nothing at every key of a path, and no marker for any of them. -/
def OpenAlong : Mapping → List Value → Prop
  | _, [] => True
  | m, key :: path => Marker.ofKey? key = none ∧ ¬ m.Names key ∧
    match m.get? key with
    | none => True
    | some (.mapping inner) => OpenAlong inner path
    | some _ => False

instance decidableOpenAlong : ∀ (m : Mapping) (path : List Value), Decidable (m.OpenAlong path)
  | _, [] => isTrue trivial
  | m, key :: path =>
    have : Decidable (match m.get? key with
        | none => True
        | some (.mapping inner) => OpenAlong inner path
        | some _ => False) :=
      match m.get? key with
      | none => isTrue trivial
      | some (.mapping inner) => decidableOpenAlong inner path
      | some .null | some (.bool _) | some (.number _) | some (.string _) | some (.list _)
      | some (.tagged _ _) => isFalse id
    inferInstanceAs (Decidable (_ ∧ _ ∧ _))

/-- Whether a body has a marker for a base. -/
def marks (base : String) (m : Mapping) : Bool :=
  (m.get? (Marker.frontKey base)).isSome || (m.get? (Marker.backKey base)).isSome

end Mapping

/-- Of bodies with the nearest first, those up to the first that sets a key plainly. -/
def sinceSet (key : Value) : List Mapping → List Mapping
  | [] => []
  | body :: older => if (body.get? key).isSome then [body] else body :: sinceSet key older

/-- The plain value of the nearest body that sets a key. -/
def lastSet (key : Value) (bodies : List Mapping) : Option Value :=
  bodies.findSome? fun body => body.get? key

/-- What a base stands for after a chain of bodies, the nearest first. -/
def accumulated (base : String) (bodies : List Mapping) : Option Value :=
  let since := sinceSet (.string base) bodies
  let plain? := lastSet (.string base) bodies
  if since.any (Mapping.marks base) then
    some (.list (since.flatMap (fun body => Mapping.itemsOf (body.get? (Marker.frontKey base))) ++
      Mapping.itemsOf plain? ++
      since.reverse.flatMap (fun body => Mapping.itemsOf (body.get? (Marker.backKey base)))))
  else plain?

/-- What the layers that a base depends on hold at the path where it stands, the nearest first. -/
def bodiesAt (path : List Value) (base : String) (layers : List Layer) : List Mapping :=
  (contributors (path ++ [.string base]) layers).map fun layer => layer.body.within path

variable {target body : Mapping} {path : List Value} {key : Value} {base : String}
  {layers : List Layer}

namespace Mapping

theorem entriesAt_of_none (h : target.get? key = none) : target.entriesAt key = [] := by
  rw [entriesAt, h]
  rfl

theorem entriesAt_of_mapping {m : Mapping} (h : target.get? key = some (.mapping m)) :
    target.entriesAt key = m := by
  rw [entriesAt, h]
  rfl

theorem entriesAt_congr (h : target.get? key = body.get? key) :
    target.entriesAt key = body.entriesAt key := by
  rw [entriesAt, h, ← entriesAt]

theorem within_nil (path : List Value) : within [] path = [] := by
  induction path with
  | nil => rfl
  | cons key path ih => exact ih

theorem tidy_entriesAt (h : (Value.mapping target).Tidy) (key : Value) :
    (Value.mapping (target.entriesAt key)).Tidy :=
  tidy_entries fun _ hv => h.get? hv

theorem tidy_within : ∀ (path : List Value) {m : Mapping},
    (Value.mapping m).Tidy → (Value.mapping (m.within path)).Tidy
  | [], _, h => h
  | key :: path, _, h => tidy_within path (tidy_entriesAt h key)

theorem at?_append (path : List Value) (key : Value) :
    ∀ m : Mapping, (Value.mapping m).at? (path ++ [key]) = (m.within path).get? key := by
  induction path with
  | nil =>
    intro m
    rw [List.nil_append, Value.at?_mapping, within]
    rcases m.get? key with _ | v <;> rfl
  | cons next path ih =>
    intro m
    rw [List.cons_append, ← Value.at?_entriesAt m (by simp), ih, within]

/-- Laying a body over a mapping lays what it holds at an open path over what stands there. -/
theorem within_overlay (ht : (Value.mapping target).Tidy) (hb : (Value.mapping body).Tidy)
    (ho : body.OpenAlong path) :
    (target.overlay body).within path = (target.within path).overlay (body.within path) := by
  induction path generalizing target body with
  | nil => rfl
  | cons key path ih =>
    obtain ⟨hplain, hnames, hopen⟩ := ho
    have hget := get?_overlay ht.distinct hb.distinct hplain hnames
    rw [within, within, within]
    rcases hv : body.get? key with _ | v
    · rw [hv] at hget
      rw [entriesAt_of_none hv, entriesAt_congr hget, within_nil, overlay_nil]
    · rw [hv] at hget hopen
      obtain ⟨inner, rfl⟩ : ∃ inner, v = .mapping inner := by
        rcases Value.mapping_or_not v with h | h
        · exact h
        · cases v <;> simp [Value.mapping?] at h hopen
      rw [overlayValue?, overlayValue_mapping] at hget
      rw [entriesAt_of_mapping hv, entriesAt_of_mapping hget]
      exact ih (tidy_entriesAt ht key) (hb.get? hv) hopen

end Mapping

section Step

open Mapping Marker

variable {older : List Mapping}

theorem gathered_of_marks {front? held? back? : Option Value}
    (h : front?.isSome || back?.isSome) : gathered front? held? back? =
      some (.list (itemsOf front? ++ itemsOf held? ++ itemsOf back?)) := by
  rcases front? with _ | front
  · rcases back? with _ | back
    · simp at h
    · rfl
  · rfl

theorem get?_of_not_marks (h : marks base body = false) :
    body.get? (frontKey base) = none ∧ body.get? (backKey base) = none := by
  rw [marks, Bool.or_eq_false_iff] at h
  simpa using h

theorem gathered_of_not_marks {held? : Option Value} (h : marks base body = false) :
    gathered (body.get? (frontKey base)) held? (body.get? (backKey base)) = held? := by
  obtain ⟨hfront, hback⟩ := get?_of_not_marks h
  rw [hfront, hback, gathered]

theorem itemsOf_of_not_marks (h : marks base body = false) :
    itemsOf (body.get? (frontKey base)) = [] ∧ itemsOf (body.get? (backKey base)) = [] := by
  obtain ⟨hfront, hback⟩ := get?_of_not_marks h
  rw [hfront, hback]
  exact ⟨rfl, rfl⟩

/-- A list that no marker of the bodies has changed holds the items of the plain value. -/
theorem itemsOf_accumulated (base : String) (bodies : List Mapping) :
    itemsOf (accumulated base bodies) =
      (sinceSet (.string base) bodies).flatMap (fun body => itemsOf (body.get? (frontKey base))) ++
        itemsOf (lastSet (.string base) bodies) ++
        (sinceSet (.string base) bodies).reverse.flatMap
          (fun body => itemsOf (body.get? (backKey base))) := by
  rw [accumulated]
  split
  · rfl
  · rename_i h
    have hnone : ∀ body ∈ sinceSet (.string base) bodies, marks base body = false := by
      simpa using h
    have hfront : (sinceSet (.string base) bodies).flatMap
        (fun body => itemsOf (body.get? (frontKey base))) = [] :=
      List.flatMap_eq_nil_iff.2 fun body hb => (itemsOf_of_not_marks (hnone body hb)).1
    have hback : (sinceSet (.string base) bodies).reverse.flatMap
        (fun body => itemsOf (body.get? (backKey base))) = [] :=
      List.flatMap_eq_nil_iff.2 fun body hb =>
        (itemsOf_of_not_marks (hnone body (List.mem_reverse.1 hb))).2
    rw [hfront, hback, List.nil_append, List.append_nil]

theorem accumulated_nil (base : String) : accumulated base [] = none := rfl

theorem accumulated_cons_of_set {v : Value} (hv : body.get? (.string base) = some v) :
    accumulated base (body :: older) =
      gathered (body.get? (frontKey base)) (some v) (body.get? (backKey base)) := by
  have hsince : sinceSet (.string base) (body :: older) = [body] := by
    rw [sinceSet, hv]
    rfl
  have hlast : lastSet (.string base) (body :: older) = some v := by
    rw [lastSet, List.findSome?_cons, hv]
  rw [accumulated, hsince, hlast]
  by_cases hm : marks base body
  · rw [gathered_of_marks hm]
    simp [hm]
  · rw [gathered_of_not_marks (by simpa using hm)]
    simp [hm]

theorem accumulated_cons_of_unset (hv : body.get? (.string base) = none) :
    accumulated base (body :: older) =
      gathered (body.get? (frontKey base)) (accumulated base older)
        (body.get? (backKey base)) := by
  have hsince : sinceSet (.string base) (body :: older) =
      body :: sinceSet (.string base) older := by
    rw [sinceSet, hv]
    rfl
  have hlast : lastSet (.string base) (body :: older) = lastSet (.string base) older := by
    rw [lastSet, List.findSome?_cons, hv, lastSet]
  by_cases hm : marks base body
  · rw [gathered_of_marks hm, itemsOf_accumulated, accumulated, hsince, hlast]
    simp [hm]
  · rw [gathered_of_not_marks (by simpa using hm), accumulated, accumulated, hsince, hlast]
    have := itemsOf_of_not_marks (by simpa using hm : marks base body = false)
    simp [hm, this.1, this.2]

end Step

section Chain

open Mapping Marker

variable {layer : Layer} {older : List Layer}

/-- What the layers below the nearest one add to the bodies that a base depends on. -/
theorem bodiesAt_cons (path : List Value) (base : String) (layer : Layer) (older : List Layer) :
    bodiesAt path base (layer :: older) = layer.body.within path ::
      if (path ++ [Value.string base]).head? = some descriptionKey then []
      else bodiesAt path base older := by
  unfold bodiesAt contributors
  split <;> simp

theorem get?_within_erase (hm : (Value.mapping target).Tidy) :
    ((target.erase descriptionKey).within path).get? (.string base) =
      if (path ++ [Value.string base]).head? = some descriptionKey then none
      else (target.within path).get? (.string base) := by
  cases path with
  | nil =>
    rw [within, within, get?_erase_description hm.distinct, List.nil_append, List.head?_cons]
    simp only [Option.some.injEq]
  | cons key path =>
    rw [within, within, List.cons_append, List.head?_cons, entriesAt,
      get?_erase_description hm.distinct]
    by_cases hk : key = descriptionKey
    · rw [if_pos hk, if_pos (by rw [hk])]
      simp [within_nil]
    · rw [if_neg hk, if_neg (by simpa using hk), ← entriesAt]

theorem get?_mergeLayers (hn : Nameable base)
    (ht : ∀ layer ∈ layers, (Value.mapping layer.body).Tidy)
    (ho : ∀ layer ∈ contributors (path ++ [.string base]) layers, layer.body.OpenAlong path)
    (hs : ∀ v ∈ lastSet (.string base) (bodiesAt path base layers), v.mapping? = none) :
    ((mergeLayers layers).within path).get? (.string base) =
      accumulated base (bodiesAt path base layers) := by
  induction layers with
  | nil =>
    rw [mergeLayers_nil, within_nil, bodiesAt, contributors]
    split <;> rfl
  | cons layer older ih =>
    have htl := ht layer List.mem_cons_self
    have htm := tidy_mergeLayers older
    have hte := htm.erase descriptionKey
    have hstep := get?_overlay_base hn (tidy_within path hte).distinct
      (tidy_within path htl).distinct
    rw [mergeLayers_cons, within_overlay hte htl (ho layer mem_contributors_cons), hstep,
      get?_within_erase htm]
    rw [bodiesAt_cons] at hs ⊢
    rcases hv : (layer.body.within path).get? (.string base) with _ | v
    · rw [accumulated_cons_of_unset hv, overlayValue?]
      split
      · rw [accumulated_nil]
      · rename_i hd
        rw [if_neg hd, lastSet, List.findSome?_cons, hv, ← lastSet] at hs
        rw [ih (fun l hl => ht l (List.mem_cons_of_mem _ hl))
          (fun l hl => ho l (mem_contributors_of_older hd hl)) hs]
    · have hleaf : v.mapping? = none := by
        refine hs v ?_
        rw [lastSet, List.findSome?_cons, hv]
        rfl
      rw [accumulated_cons_of_set hv, overlayValue?, overlayValue_of_not_mapping _ hleaf]

end Chain

/-- The list of a base, at the top of a profile or in a section of it that every layer leaves out
or writes as a mapping: since the base was last set, what the markers add stands around the plain
value, and without markers the plain value stands as it is. -/
theorem at?_mergedBody_accumulated {c : Config} {name : String} (hd : c.document.Distinct)
    (ha : ancestry c.profiles name = .ok layers) (hn : Marker.Nameable base)
    (ho : ∀ layer ∈ contributors (path ++ [.string base]) layers, layer.body.OpenAlong path)
    (hs : ∀ v ∈ lastSet (.string base) (bodiesAt path base layers), v.mapping? = none) :
    ∃ merged, mergedBody c.profiles name = .ok merged ∧
      (Value.mapping merged).at? (path ++ [.string base]) =
        accumulated base (bodiesAt path base layers) := by
  refine ⟨_, mergedBody_of_ancestry ha, ?_⟩
  rw [Mapping.at?_append]
  exact get?_mergeLayers hn (tidy_of_ancestry hd ha) ho hs

/-- The middle layer sets the list anew, and the nearest one adds to it. -/
theorem at?_mergedBody_threeLayers :
    ∃ merged, mergedBody threeLayers.profiles "child" = .ok merged ∧
      (Value.mapping merged).at? [.string "forget", .string "tag"] =
        some (.list [.string "b", .string "a", .string "c", .string "d"]) := by
  obtain ⟨merged, hm, hv⟩ : ∃ merged, mergedBody threeLayers.profiles "child" = .ok merged ∧
      (Value.mapping merged).at? ([.string "forget"] ++ [.string "tag"]) =
        accumulated "tag" (bodiesAt [.string "forget"] "tag" threeLayersChain) :=
    at?_mergedBody_accumulated distinct_threeLayers ancestry_threeLayers
      ⟨by decide, 't', by decide, by decide⟩ (by decide) (by decide)
  refine ⟨merged, hm, hv.trans ?_⟩
  decide

end BackupProfiles
