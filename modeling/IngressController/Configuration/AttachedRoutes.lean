import IngressController.Configuration.Routes

/-! # What is attached to a VirtualServer

The routes attached to a VirtualServer are stored ones that validation accepts for it, and the
keys of a selector are listed once each, in order.
-/

namespace IngressController

open List

section Lists

theorem sublist_dropSeenVSRs (vs : ObjectMeta) (seen : List String)
    (vsrs : List VirtualServerRoute) : (dropSeenVSRs vs seen vsrs).1.Sublist vsrs := by
  induction vsrs generalizing seen with
  | nil => exact List.Sublist.slnil
  | cons vsr rest ih =>
    unfold dropSeenVSRs
    split
    · exact (ih seen).cons vsr
    · exact (ih (objectKey vsr :: seen)).cons_cons vsr

theorem sublist_removeFromVSRSlice (names : List String) (vsrs : List VirtualServerRoute) :
    (names.foldl removeFromVSRSlice vsrs).Sublist vsrs := by
  induction names generalizing vsrs with
  | nil => exact List.Sublist.refl vsrs
  | cons name names ih => exact (ih (removeFromVSRSlice vsrs name)).trans eraseP_sublist

end Lists

/-- A stored route that validation accepts for some paths of a VirtualServer of the host. -/
structure Attachable (env : Env) (routes : Store VirtualServerRoute) (host : String)
    (v : VirtualServerRoute) : Prop where
  stored : routes.get (objectKey v) = some v
  accepted : ∃ paths, env.validateVirtualServerRouteForVirtualServer v host paths = none

structure Collected (env : Env) (routes : Store VirtualServerRoute) (host : String)
    (col : VsrCollection) : Prop where
  vsrs : ∀ v ∈ col.vsrs, Attachable env routes host v
  entries : ∀ (k : String) e, col.regexEntries[k]? = some e →
    routes.get (objectKey e.vsr) = some e.vsr
  selectors : ∀ (s : String) keys, col.vsrSelectors[s]? = some keys → keys.Pairwise (· < ·)

section Collect

variable {env : Env} {routes : Store VirtualServerRoute} {vs : VirtualServer}
  {v : VirtualServerRoute}

theorem stored_of_get {k : String} (h : routes.get k = some v) :
    routes.get (objectKey v) = some v := by
  rw [routes.key_of_get h]
  exact h

variable {col : VsrCollection}

theorem Collected.addValid (h : Collected env routes vs.spec.host col)
    {validVsrs : List VirtualServerRoute}
    (hvalid : ∀ v ∈ validVsrs, Attachable env routes vs.spec.host v) :
    Collected env routes vs.spec.host (VsrCollection.addValid vs validVsrs col) where
  vsrs v hv := by
    obtain hv | hv := mem_append.mp hv
    · exact h.vsrs v hv
    · exact hvalid v ((sublist_dropSeenVSRs _ _ _).subset hv)
  entries := h.entries
  selectors := h.selectors

theorem Collected.collectRegexNamedRoute
    (h : Collected env routes vs.spec.host col) (routeName path : String) (i : Nat) :
    Collected env routes vs.spec.host (col.collectRegexNamedRoute routes vs routeName path i) := by
  simp only [VsrCollection.collectRegexNamedRoute]
  cases hget : routes.get (vsrKeyOf vs.objectMeta.nspace routeName) with
  | none => exact ⟨h.vsrs, h.entries, h.selectors⟩
  | some vsr =>
    simp only
    cases hentry : col.regexEntries[vsrKeyOf vs.objectMeta.nspace routeName]? with
    | some entry =>
      simp only
      split
      · exact h
      refine ⟨h.vsrs, fun k e he => ?_, h.selectors⟩
      rw [Table.get_insert] at he
      split at he
      · cases he
        exact h.entries _ entry hentry
      · exact h.entries k e he
    | none =>
      refine ⟨h.vsrs, fun k e he => ?_, h.selectors⟩
      rw [Table.get_insert] at he
      split at he
      · cases he
        exact stored_of_get hget
      · exact h.entries k e he

variable {vsHost : String}

theorem mem_validateVSRs {r : Route} {vsNamespace : ResourceName}
    (h : v ∈ (validateVSRs env routes r vsHost vsNamespace).1) :
    Attachable env routes vsHost v := by
  simp only [validateVSRs] at h
  cases hget : routes.get (vsrKeyOf vsNamespace r.route) with
  | none => simp [hget] at h
  | some vsr =>
    rw [hget] at h
    simp only at h
    split at h
    · cases h
    · rename_i hvalid
      rw [mem_singleton] at h
      exact h ▸ ⟨stored_of_get hget, [r.path], hvalid⟩

/-- What a selector found after some of the stored routes. -/
structure Found (env : Env) (routes : Store VirtualServerRoute) (host : String)
    (visited : List String) (found : SelectorMatches) : Prop where
  vsrs : ∀ v ∈ found.vsrs, Attachable env routes host v
  keys : found.keys.Sublist visited

theorem Found.visit {visited : List String} {found : SelectorMatches}
    (h : Found env routes vsHost visited found) (sel : LabelSelector) (path key : String) :
    Found env routes vsHost (visited ++ [key]) (found.visit env routes sel vsHost path key) := by
  have hkeys : found.keys.Sublist (visited ++ [key]) :=
    h.keys.trans (sublist_append_left visited [key])
  unfold SelectorMatches.visit
  cases hget : routes.get key with
  | none => exact ⟨h.vsrs, hkeys⟩
  | some vsr =>
    simp only
    split
    · split
      · exact ⟨h.vsrs, hkeys⟩
      rename_i hvalid
      refine ⟨fun v hv => ?_, h.keys.append (List.Sublist.refl [key])⟩
      obtain hv | hv := mem_append.mp hv
      · exact h.vsrs v hv
      · rw [mem_singleton] at hv
        exact hv ▸ ⟨stored_of_get hget, [path], hvalid⟩
    · exact ⟨h.vsrs, hkeys⟩

theorem found_foldl (order : List String) (sel : LabelSelector) (vsHost path : String) :
    Found env routes vsHost order
      (order.foldl (SelectorMatches.visit env routes sel vsHost path) {}) := by
  induction order using reverseRecOn with
  | nil => exact ⟨by simp, List.Sublist.slnil⟩
  | append_singleton order key ih =>
    rw [foldl_append, foldl_cons, foldl_nil]
    exact ih.visit sel path key

theorem pairwise_insertionSort {keys : List String} (h : keys.Nodup) :
    (keys.insertionSort (· ≤ ·)).Pairwise (· < ·) := by
  have hnodup : (keys.insertionSort (· ≤ ·)).Nodup :=
    (perm_insertionSort (· ≤ ·) keys).nodup_iff.mpr h
  have hsorted : (keys.insertionSort (· ≤ ·)).Pairwise (· ≤ ·) :=
    List.pairwise_insertionSort (· ≤ ·) keys
  exact (hsorted.and hnodup).imp fun hle => lt_of_le_of_ne hle.1 hle.2

theorem validateVSRSelectors_spec (env : Env) (routes : Store VirtualServerRoute)
    {order : List String} (hnodup : order.Nodup) (selector : RouteSelector)
    (path vsHost : String) :
    (∀ v ∈ (validateVSRSelectors env routes order selector path vsHost).1,
      Attachable env routes vsHost v) ∧
    ∀ (s : String) keys,
      (validateVSRSelectors env routes order selector path vsHost).2.1[s]? = some keys →
        keys.Pairwise (· < ·) := by
  unfold validateVSRSelectors
  cases env.labelSelectorAsSelector selector.matchLabels with
  | error err => simp
  | ok sel =>
    have hfound : Found env routes vsHost order
        (order.foldl (SelectorMatches.visit env routes sel vsHost path) {}) :=
      found_foldl order sel vsHost path
    refine ⟨hfound.vsrs, fun s keys hkeys => ?_⟩
    rw [Table.get_insert] at hkeys
    split at hkeys
    · cases hkeys
      exact pairwise_insertionSort (hfound.keys.nodup hnodup)
    · simp at hkeys

theorem get_insertMany {α : Type} {m : GoMap α} {l : List (String × α)} {k : String} {a : α}
    (h : (m.insertMany l)[k]? = some a) : m[k]? = some a ∨ (k, a) ∈ l := by
  induction l generalizing m with
  | nil => exact .inl h
  | cons e l ih =>
    rw [Std.ExtTreeMap.insertMany_cons] at h
    obtain hm | hl := ih h
    · rw [Table.get_insert] at hm
      split at hm
      · rename_i hk
        cases hm
        exact .inr (hk ▸ mem_cons_self)
      · exact .inl hm
    · exact .inr (mem_cons_of_mem e hl)

theorem Collected.collectSelectorRoute
    (h : Collected env routes vs.spec.host col) {order : List String} (hnodup : order.Nodup)
    (r : Route) (selector : RouteSelector) :
    Collected env routes vs.spec.host
      (col.collectSelectorRoute env routes order vs r selector) := by
  have hspec := validateVSRSelectors_spec env routes hnodup selector r.path vs.spec.host
  unfold VsrCollection.collectSelectorRoute
  refine Collected.addValid ?_ hspec.1
  refine ⟨h.vsrs, h.entries, fun s keys hkeys => ?_⟩
  obtain hold | hnew := get_insertMany hkeys
  · exact h.selectors s keys hold
  · exact hspec.2 s keys (Std.ExtTreeMap.mem_toList_iff_getElem?_eq_some.mp hnew)

theorem Collected.collectRoute (h : Collected env routes vs.spec.host col)
    (ord : Order) (r : Route) (i : Nat) :
    Collected env routes vs.spec.host (col.collectRoute env routes ord vs r i) := by
  simp only [VsrCollection.collectRoute]
  split
  · exact h.collectRegexNamedRoute r.route r.path i
  split
  · refine Collected.addValid ?_ fun v hv => mem_validateVSRs hv
    exact ⟨h.vsrs, h.entries, h.selectors⟩
  · cases r.routeSelector with
    | none => exact h
    | some selector =>
      exact h.collectSelectorRoute (ord.nodup_visit _ routes.nodup_sortedKeys) r selector

theorem collected_classify (ord : Order) :
    Collected env routes vs.spec.host (classifyAndCollectVSRs env routes ord vs) := by
  unfold classifyAndCollectVSRs
  apply foldlRecOn (motive := Collected env routes vs.spec.host)
  · exact ⟨by simp, fun k e he => by simp at he, fun s keys hkeys => by simp at hkeys⟩
  · intro col hcol e _
    exact hcol.collectRoute ord e.1 e.2

theorem mem_validateAndBuildRegexVSRs {entries : GoMap RegexVSREntry}
    (hentries : ∀ (k : String) e, entries[k]? = some e →
      routes.get (objectKey e.vsr) = some e.vsr) :
    ∀ v ∈ (validateAndBuildRegexVSRs env entries vsHost).1, Attachable env routes vsHost v := by
  unfold validateAndBuildRegexVSRs
  apply foldlRecOn (motive := fun acc : List VirtualServerRoute × List String =>
    ∀ v ∈ acc.1, Attachable env routes vsHost v)
  · simp
  intro acc hacc e he v hv
  obtain ⟨key, entry⟩ := e
  have hentry : entries[key]? = some entry := by
    rw [mem_insertionSort] at he
    exact Std.ExtTreeMap.mem_toList_iff_getElem?_eq_some.mp he
  simp only at hv
  split at hv
  · exact hacc v hv
  · rename_i hvalid
    obtain hv | hv := mem_append.mp hv
    · exact hacc v hv
    · rw [mem_singleton] at hv
      exact hv ▸ ⟨hentries key entry hentry, entry.paths, hvalid⟩

variable {ord : Order}

theorem attachable_of_attached (h : v ∈ (buildVirtualServerRoutes env routes ord vs).1) :
    Attachable env routes vs.spec.host v := by
  have hcollected : Collected env routes vs.spec.host
      (classifyAndCollectVSRs env routes ord vs) := collected_classify ord
  have hsub := (sublist_removeFromVSRSlice _ _).subset h
  have hdistinct := (sublist_dropSeenVSRs _ _ _).subset hsub
  obtain hv | hv := mem_append.mp hdistinct
  · exact hcollected.vsrs v hv
  · exact mem_validateAndBuildRegexVSRs hcollected.entries v hv

theorem stored_of_attached (h : v ∈ (buildVirtualServerRoutes env routes ord vs).1) :
    routes.get (objectKey v) = some v :=
  (attachable_of_attached h).stored

theorem pairwise_of_selector {s : String} {keys : List String}
    (h : (buildVirtualServerRoutes env routes ord vs).2.1[s]? = some keys) :
    keys.Pairwise (· < ·) := by
  have hcollected : Collected env routes vs.spec.host
      (classifyAndCollectVSRs env routes ord vs) := collected_classify ord
  simp only [buildVirtualServerRoutes, syncVSRSelectors, Std.ExtTreeMap.getElem?_map,
    Option.map_eq_some_iff] at h
  obtain ⟨keys', hkeys', rfl⟩ := h
  exact (hcollected.selectors s keys' hkeys').filter _

end Collect

end IngressController
