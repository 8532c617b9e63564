import IngressController.Controller.SplitSites

/-! # Agreement of weight updates with the configuration

The updates of a VirtualServer agree with the configuration as long as nothing before a changed
split is counted differently; those of a VirtualServerRoute do if the first index is right.
-/

namespace IngressController

open Configs Offsets Validation SplitSite List
open Prod (snd)

/-- The updates are the values that the configuration of the new version assigns to the splits whose
weights changed. -/
def WeightUpdatesAgree (vsc : VirtualServerConfigurator) (exOld exNew : VirtualServerEx)
    (updates : List WeightUpdate) : Prop :=
  ∃ cfgOld cfgNew, generateVirtualServerConfig vsc exOld = some cfgOld ∧
    generateVirtualServerConfig vsc exNew = some cfgNew ∧
      ∀ u, u ∈ updates ↔ IsAssigned (newVSVariableNamer exNew.virtualServer) cfgOld cfgNew u

def NoSelectors (vsEx : VirtualServerEx) : Prop :=
  ∀ vsr ∈ vsEx.virtualServerRoutes, ∀ r ∈ vsr.spec.subroutes, r.routeSelector = none

/-- The controller counts splits as the generator does: in a rendered route unless they are changed
splits of the route itself, in a route that is not rendered if there are none. -/
def SplitSite.CountedAlike (s : SplitSite) : Prop :=
  if s.rendered then ¬(s.ofRoute = true ∧ s.changed = true) else s.new = []

/-- Changed splits are those of rendered routes, and those before them are counted alike. -/
def CountedAlike (sites : List SplitSite) : Prop :=
  ∀ before s after, sites = before ++ s :: after → s.changed = true →
    s.rendered = true ∧ ∀ s' ∈ before, s'.CountedAlike

def subroutesCount (vsrs : List VirtualServerRoute) : Nat :=
  total (splitClientsCount true) ((subroutesOf vsrs).map snd)

/-- The split clients of the routes that are not rendered are as many as those of the
VirtualServerRoutes from the first of the same name on. -/
def StartsAlike (vs : VirtualServer) (before : List VirtualServerRoute)
    (vsr : VirtualServerRoute) : Prop :=
  total (splitClientsCount true) (vs.spec.routes.filter fun r => !rendersLocations r) =
    subroutesCount (before.dropWhile fun vsr' => vsr'.objectMeta.name ≠ vsr.objectMeta.name)

variable {s : SplitSite}

theorem update_number_inj {namer : VariableNamer} {i j : Nat} {s' : SplitSite}
    (h : s.update namer i = s'.update namer j) : i = j := by
  have hzone := congrArg WeightUpdate.zone h
  have hnumber : toString i = toString j := (String.append_right_inj _).mp hzone
  exact GoString.ofNat_inj (congrArg String.toList hnumber)

theorem step_pos {extra : SplitSite → Nat} (h : s.changed = true) : 0 < s.step extra := by
  have htwo : s.new.length = 2 := by
    simp only [changed, splitsHaveWeightChanges, Bool.and_eq_true] at h
    simpa using h.1
  rw [step, splitClientsAmount_eq, if_pos htwo]
  exact Nat.lt_of_lt_of_le (by decide) (Nat.le_add_right _ _)

theorem size_pos (h : s.changed = true) (hrendered : s.rendered = true) : 0 < s.size := by
  have hstep := @step_pos s (fun _ => 0) h
  simpa [step, size, hrendered] using hstep

theorem size_le_step (extra : SplitSite → Nat) (s : SplitSite) : s.size ≤ s.step extra := by
  unfold size step
  split <;> simp

theorem splitClientsAmount_eq_zero_iff {splits : List Split} :
    splitClientsAmount true splits = 0 ↔ splits = [] := by
  rw [splitClientsAmount_eq, ← length_eq_zero_iff]
  split
  · rename_i htwo
    rw [htwo]
    exact iff_of_false (by decide) (by decide)
  · split <;> omega

theorem step_eq_size_iff (s : SplitSite) : s.step vsExtra = s.size ↔ s.CountedAlike := by
  unfold SplitSite.step SplitSite.size SplitSite.CountedAlike vsExtra
  cases hrendered : s.rendered with
  | true =>
    have hextra : splitClientAmountWhenWeightChangesDynamicReload ≠ 0 := by decide
    cases s.changed <;> simp [hextra]
  | false =>
    rw [if_neg Bool.false_ne_true, if_neg Bool.false_ne_true, Nat.add_eq_zero_iff,
      splitClientsAmount_eq_zero_iff, and_iff_left_iff_imp]
    intro hnil
    simp [changed, splitsHaveWeightChanges, hnil]

theorem unchanged_of_eq (h : s.old = s.new) : s.changed = false := by
  simp [changed, splitsHaveWeightChanges, weightsDiffer, h]

theorem unchanged_of_mem_sitesOf {rendered : Bool} {r : Route} (hs : s ∈ sitesOf rendered (r, r)) :
    s.changed = false := by
  rcases mem_append.mp hs with hs | hs
  · obtain ⟨m, hm, rfl⟩ := mem_map.mp hs
    rw [zip, zipWith_self] at hm
    obtain ⟨m', -, rfl⟩ := mem_map.mp hm
    exact unchanged_of_eq rfl
  · obtain rfl := mem_singleton.mp hs
    exact unchanged_of_eq rfl

theorem unchanged_of_same {rendered : Route × Route → Bool} {rs : List Route}
    (hs : s ∈ (rs.zip rs).flatMap fun e => sitesOf (rendered e) e) : s.changed = false := by
  obtain ⟨e, he, hs⟩ := mem_flatMap.mp hs
  rw [zip, zipWith_self] at he
  obtain ⟨r, -, rfl⟩ := mem_map.mp he
  exact unchanged_of_mem_sitesOf hs

theorem filter_unchanged {sites : List SplitSite} (h : ∀ s ∈ sites, s.changed = false)
    (start : Nat) :
    (place size start sites).filter (fun e => e.2.changed && e.2.rendered) = [] := by
  refine filter_eq_nil_iff.mpr fun e he => ?_
  rw [h e.2 (mem_of_mem_place he)]
  exact Bool.false_ne_true

theorem same_updates_iff (namer : VariableNamer) (extra : SplitSite → Nat) (a b : Nat)
    (sites : List SplitSite) :
    (∀ u, u ∈ ((place (step extra) a sites).filter fun e => e.2.changed).map
          (fun e => e.2.update namer e.1) ↔
        u ∈ ((place size b sites).filter fun e => e.2.changed && e.2.rendered).map
          fun e => e.2.update namer e.1) ↔
      ∀ before s after, sites = before ++ s :: after → s.changed = true → s.rendered = true ∧
        a + total (step extra) before = b + total size before := by
  refine @same_numbers_iff _ _ (step extra) size a b sites changed
    rendered (fun i s => s.update namer i) (fun i j s s' h => update_number_inj h)
    (fun s _ hs => step_pos hs) (fun s _ hs => ?_)
  rw [Bool.and_eq_true] at hs
  exact size_pos hs.1 hs.2

section

variable {vsc : VirtualServerConfigurator} {exOld exNew : VirtualServerEx}

/-- Agreement of versions that are generated, by the numbers of all splits. -/
theorem weightUpdatesAgree_iff (hdynamic : vsc.dynamicWeightChangesReload = true)
    (haccepted : AcceptedSpecs exOld) (h : SameVersions exOld exNew)
    (hold : CompleteInputs vsc exOld) (hnew : CompleteInputs vsc exNew)
    (updates : List WeightUpdate) :
    WeightUpdatesAgree vsc exOld exNew updates ↔ NoSelectors exOld ∧
      ∀ u, u ∈ updates ↔ u ∈ ((place size 0 (allSites exOld exNew)).filter fun e =>
        e.2.changed && e.2.rendered).map fun e =>
          e.2.update (newVSVariableNamer exNew.virtualServer) e.1 := by
  unfold NoSelectors
  rw [← generated_versions_iff haccepted h hold hnew]
  constructor
  · rintro ⟨cfgOld, cfgNew, hcfgOld, hcfgNew, hagree⟩
    refine ⟨⟨by rw [hcfgOld]; rfl, by rw [hcfgNew]; rfl⟩, fun u => ?_⟩
    rw [hagree, isAssigned_iff hdynamic h hcfgOld hcfgNew]
  · rintro ⟨⟨hsomeOld, hsomeNew⟩, hagree⟩
    obtain ⟨cfgOld, hcfgOld⟩ := Option.isSome_iff_exists.mp hsomeOld
    obtain ⟨cfgNew, hcfgNew⟩ := Option.isSome_iff_exists.mp hsomeNew
    refine ⟨cfgOld, cfgNew, hcfgOld, hcfgNew, fun u => ?_⟩
    rw [hagree, isAssigned_iff hdynamic h hcfgOld hcfgNew]

end

variable {vsEx : VirtualServerEx}

theorem vsWeightUpdates_agree_iff {vsc : VirtualServerConfigurator}
    (hdynamic : vsc.dynamicWeightChangesReload = true) (haccepted : AcceptedSpecs vsEx)
    (hcomplete : CompleteInputs vsc vsEx) {vs : VirtualServer}
    (hnspace : vsEx.virtualServer.objectMeta.nspace = vs.objectMeta.nspace)
    (hspec : zeroOutVirtualServerSplitWeights vsEx.virtualServer.spec =
      zeroOutVirtualServerSplitWeights vs.spec) :
    WeightUpdatesAgree vsc vsEx { vsEx with virtualServer := vs }
        (vsWeightUpdates vsEx.virtualServer vs) ↔
      NoSelectors vsEx ∧
        CountedAlike (routeSites vsEx.virtualServer.spec.routes vs.spec.routes) := by
  have hroutes := congrArg VirtualServerSpec.routes hspec
  have htls := congrArg VirtualServerSpec.tls hspec
  have hsame : SameVersions vsEx { vsEx with virtualServer := vs } := ⟨hroutes, rfl⟩
  have hcomplete' : CompleteInputs vsc { vsEx with virtualServer := vs } :=
    ⟨fun t ht => hnspace ▸ hcomplete.tls t (htls.trans ht), hcomplete.policies⟩
  rw [weightUpdatesAgree_iff hdynamic haccepted hsame hcomplete hcomplete']
  refine and_congr_right fun _ => ?_
  -- only splits of routes changed
  rw [allSites, place_append, filter_append,
    filter_unchanged (fun s (hs : s ∈ subrouteSites _ _) => unchanged_of_same hs), append_nil,
    vsWeightUpdates_eq, same_updates_iff]
  unfold CountedAlike
  refine forall₃_congr fun before s after => forall₂_congr fun _ _ => and_congr_right fun _ => ?_
  rw [Nat.zero_add, Nat.zero_add, total_eq_total_iff fun s _ => size_le_step vsExtra s]
  exact forall₂_congr fun s' _ => step_eq_size_iff s'

theorem addRouteAmount_eq (index : Nat) (r : Route) :
    addRouteAmount index r = index + splitClientsCount true r := by
  have hsplits : ∀ index splits,
      addSplitsAmount index splits = index + splitClientsAmount true splits := by
    intro index splits
    rw [splitClientsAmount_eq]
    unfold addSplitsAmount
    split_ifs <;> rfl
  have hmatches : ∀ (routeMatches : List Match) index,
      routeMatches.foldl (fun index m => addSplitsAmount index m.splits) index =
        index + total (splitClientsAmount true) (routeMatches.map Match.splits) := by
    intro routeMatches
    induction routeMatches with
    | nil => exact fun _ => rfl
    | cons m routeMatches ih =>
      intro index
      rw [foldl_cons, ih, hsplits, map_cons, total_cons, Nat.add_assoc]
  rw [addRouteAmount, hsplits, hmatches, splitClientsCount, splitsOf, total_append, total_cons,
    total_nil, Nat.add_zero, Nat.add_assoc]

theorem foldl_addRouteAmount (index : Nat) (rs : List Route) :
    rs.foldl addRouteAmount index = index + total (splitClientsCount true) rs := by
  induction rs generalizing index with
  | nil => rfl
  | cons r rs ih => rw [foldl_cons, ih, addRouteAmount_eq, total_cons, Nat.add_assoc]

theorem subroutesCount_cons (vsr : VirtualServerRoute) (vsrs : List VirtualServerRoute) :
    subroutesCount (vsr :: vsrs) =
      total (splitClientsCount true) vsr.spec.subroutes + subroutesCount vsrs := by
  simp [subroutesCount, subroutesOf, Function.comp_def]

theorem subroutesCount_append (vsrs vsrs' : List VirtualServerRoute) :
    subroutesCount (vsrs ++ vsrs') = subroutesCount vsrs + subroutesCount vsrs' := by
  simp [subroutesCount, subroutesOf]

theorem indexAtName_eq (name : ResourceName) (index : Nat) (vsrs : List VirtualServerRoute) :
    indexAtName name.val index vsrs =
      index + subroutesCount (vsrs.takeWhile fun vsr => vsr.objectMeta.name ≠ name) := by
  induction vsrs generalizing index with
  | nil => rfl
  | cons vsr vsrs ih =>
    unfold indexAtName
    by_cases hname : vsr.objectMeta.name = name
    · rw [if_pos (congrArg Subtype.val hname), takeWhile_cons_of_neg (by simpa using hname)]
      rfl
    · rw [if_neg fun h => hname (Subtype.ext h), ih, foldl_addRouteAmount,
        takeWhile_cons_of_pos (by simpa using hname), subroutesCount_cons, Nat.add_assoc]

theorem total_partition (f : Route → Nat) (p : Route → Bool) (rs : List Route) :
    total f rs = total f (rs.filter p) + total f (rs.filter fun r => !p r) := by
  induction rs with
  | nil => rfl
  | cons r rs ih =>
    rw [total_cons, ih, filter_cons, filter_cons]
    cases p r <;> simp <;> omega

theorem vsrHasWeightChanges_eq (vsrOld vsrNew : VirtualServerRoute) :
    vsrHasWeightChanges vsrOld vsrNew =
      (subrouteSites vsrOld.spec.subroutes vsrNew.spec.subroutes).any changed := by
  unfold vsrHasWeightChanges subrouteSites
  rw [any_flatMap]
  congr 1
  funext e
  rw [sitesOf, any_append, any_map, any_cons, any_nil, Bool.or_false]
  rfl

theorem vsrWeightUpdates_eq (vsEx : VirtualServerEx) (vsrOld vsrNew : VirtualServerRoute) :
    vsrWeightUpdates vsEx vsrOld vsrNew =
      ((place (step fun _ => 0) (getStartingSplitClientsIndex vsrNew vsEx)
        (subrouteSites vsrOld.spec.subroutes vsrNew.spec.subroutes)).filter fun e =>
          e.2.changed).map fun e => e.2.update (newVSVariableNamer vsEx.virtualServer) e.1 := by
  unfold vsrWeightUpdates
  rw [vsrHasWeightChanges_eq]
  cases hany : (subrouteSites vsrOld.spec.subroutes vsrNew.spec.subroutes).any changed with
  | false =>
    rw [Bool.not_false, if_pos rfl, filter_eq_nil_iff.mpr, map_nil]
    intro e he
    exact any_eq_false.mp hany e.2 (mem_of_mem_place he)
  | true =>
    rw [Bool.not_true, if_neg Bool.false_ne_true]
    have hroute : ∀ (scan : WeightScan) (e : Route × Route),
        scanSubroute (newVSVariableNamer vsEx.virtualServer) scan e =
          (sitesOf true e).foldl (fun scan s =>
            scanSplits (newVSVariableNamer vsEx.virtualServer) 0 scan s.old s.new) scan := by
      intro scan e
      rw [sitesOf, foldl_append, foldl_map]
      rfl
    have hfold := foldl_scanSplits (newVSVariableNamer vsEx.virtualServer) (fun _ => 0)
      (subrouteSites vsrOld.spec.subroutes vsrNew.spec.subroutes)
      { splitClientsIndex := getStartingSplitClientsIndex vsrNew vsEx }
    rw [subrouteSites, foldl_flatMap] at hfold
    simp only [← hroute] at hfold
    exact hfold

def withSubroutes (vsEx : VirtualServerEx) (before : List VirtualServerRoute)
    (vsr : VirtualServerRoute) (after : List VirtualServerRoute) : VirtualServerEx :=
  { vsEx with virtualServerRoutes := before ++ vsr :: after }

variable {vsr vsrNew : VirtualServerRoute}

theorem subrouteSites_withSubroutes (before after : List VirtualServerRoute)
    (hlength : vsr.spec.subroutes.length = vsrNew.spec.subroutes.length) :
    subrouteSites ((subroutesOf (before ++ vsr :: after)).map snd)
        ((subroutesOf (before ++ vsrNew :: after)).map snd) =
      subrouteSites ((subroutesOf before).map snd) ((subroutesOf before).map snd) ++
        subrouteSites vsr.spec.subroutes vsrNew.spec.subroutes ++
          subrouteSites ((subroutesOf after).map snd) ((subroutesOf after).map snd) := by
  have hsubroutes : ∀ vsr : VirtualServerRoute,
      (subroutesOf (before ++ vsr :: after)).map snd =
        ((subroutesOf before).map snd ++ vsr.spec.subroutes) ++
          (subroutesOf after).map snd := by
    intro vsr
    simp [subroutesOf, Function.comp_def]
  rw [hsubroutes, hsubroutes, subrouteSites, zip_append (by simp [hlength]),
    zip_append rfl, flatMap_append, flatMap_append]
  rfl

theorem total_size (sites : List SplitSite) :
    total size sites = total (splitClientsAmount true) ((sites.filter rendered).map new) := by
  induction sites with
  | nil => rfl
  | cons s sites ih =>
    rw [total_cons, ih, filter_cons, size]
    cases s.rendered <;> simp

theorem total_size_routeSites (rs : List Route) :
    total size (routeSites rs rs) =
      total (splitClientsCount true) (rs.filter rendersLocations) := by
  rw [total_size, (routeSites_spec (forall₂_sameShape_refl rs)).2.1, total_flatMap]
  rfl

theorem total_size_subrouteSites (vsrs : List VirtualServerRoute) :
    total size (subrouteSites ((subroutesOf vsrs).map snd) ((subroutesOf vsrs).map snd)) =
      subroutesCount vsrs := by
  obtain ⟨-, hnew, hrendered⟩ :=
    subrouteSites_spec (forall₂_sameShape_refl ((subroutesOf vsrs).map snd))
  rw [total_size, filter_eq_self.mpr fun s hs => (hrendered s hs).1, hnew, total_flatMap]
  rfl

theorem takeWhile_append_cons {α : Type} {p : α → Bool} {x : α} (hx : p x = false)
    (xs ys : List α) : (xs ++ x :: ys).takeWhile p = xs.takeWhile p := by
  induction xs with
  | nil => rw [nil_append, takeWhile_cons_of_neg (by simp [hx]), takeWhile_nil]
  | cons y xs ih => rw [cons_append, takeWhile_cons, takeWhile_cons, ih]

theorem startingIndex_eq_iff {before after : List VirtualServerRoute}
    (hname : vsr.objectMeta.name = vsrNew.objectMeta.name) :
    getStartingSplitClientsIndex vsrNew (withSubroutes vsEx before vsrNew after) =
        total (splitClientsCount true)
          (vsEx.virtualServer.spec.routes.filter rendersLocations) + subroutesCount before ↔
      StartsAlike vsEx.virtualServer before vsr := by
  have hbefore := subroutesCount_append
    (before.takeWhile fun vsr' => vsr'.objectMeta.name ≠ vsr.objectMeta.name)
    (before.dropWhile fun vsr' => vsr'.objectMeta.name ≠ vsr.objectMeta.name)
  rw [takeWhile_append_dropWhile] at hbefore
  rw [getStartingSplitClientsIndex, indexAtName_eq, ← hname, withSubroutes,
    takeWhile_append_cons (by simp [hname]), foldl_addRouteAmount, Nat.zero_add, hbefore,
    StartsAlike, total_partition _ rendersLocations vsEx.virtualServer.spec.routes]
  omega

theorem vsrWeightUpdates_agree_iff {vsc : VirtualServerConfigurator}
    (hdynamic : vsc.dynamicWeightChangesReload = true) (haccepted : AcceptedSpecs vsEx)
    (hcomplete : CompleteInputs vsc vsEx) {before after : List VirtualServerRoute}
    (hvsrs : vsEx.virtualServerRoutes = before ++ vsr :: after)
    (hname : vsr.objectMeta.name = vsrNew.objectMeta.name)
    (hspec : zeroOutVirtualServerRouteSplitWeights vsr.spec =
      zeroOutVirtualServerRouteSplitWeights vsrNew.spec) :
    WeightUpdatesAgree vsc vsEx (withSubroutes vsEx before vsrNew after)
        (vsrWeightUpdates (withSubroutes vsEx before vsrNew after) vsr vsrNew) ↔
      NoSelectors vsEx ∧
        (vsrHasWeightChanges vsr vsrNew = false ∨ StartsAlike vsEx.virtualServer before vsr) := by
  have hsubroutes := congrArg VirtualServerRouteSpec.subroutes hspec
  dsimp only [zeroOutVirtualServerRouteSplitWeights] at hsubroutes
  have hlength : vsr.spec.subroutes.length = vsrNew.spec.subroutes.length := by
    have hmap := congrArg length hsubroutes
    rwa [length_map, length_map] at hmap
  have hsame : SameVersions vsEx (withSubroutes vsEx before vsrNew after) := by
    refine ⟨rfl, ?_⟩
    rw [hvsrs]
    simpa [withSubroutes, subroutesOf, Function.comp_def] using hsubroutes
  have hcomplete' : CompleteInputs vsc (withSubroutes vsEx before vsrNew after) :=
    ⟨hcomplete.tls, hcomplete.policies⟩
  rw [weightUpdatesAgree_iff hdynamic haccepted hsame hcomplete hcomplete']
  refine and_congr_right fun _ => ?_
  -- only splits of the VirtualServerRoute changed
  have hsites : (place size 0 (allSites vsEx (withSubroutes vsEx before vsrNew after))).filter
        (fun e => e.2.changed && e.2.rendered) =
      (place size
        (total (splitClientsCount true) (vsEx.virtualServer.spec.routes.filter rendersLocations) +
          subroutesCount before)
        (subrouteSites vsr.spec.subroutes vsrNew.spec.subroutes)).filter
          fun e => e.2.changed && e.2.rendered := by
    have hall : allSites vsEx (withSubroutes vsEx before vsrNew after) =
        routeSites vsEx.virtualServer.spec.routes vsEx.virtualServer.spec.routes ++
          subrouteSites ((subroutesOf (before ++ vsr :: after)).map snd)
            ((subroutesOf (before ++ vsrNew :: after)).map snd) := by
      rw [allSites, hvsrs]
      rfl
    rw [hall, subrouteSites_withSubroutes before after hlength, place_append, place_append,
      place_append, filter_append, filter_append, filter_append,
      filter_unchanged fun s (hs : s ∈ routeSites _ _) => unchanged_of_same hs,
      filter_unchanged fun s (hs : s ∈ subrouteSites _ _) => unchanged_of_same hs,
      filter_unchanged fun s (hs : s ∈ subrouteSites _ _) => unchanged_of_same hs, nil_append,
      nil_append, append_nil, Nat.zero_add, total_size_routeSites, total_size_subrouteSites]
  have hrendered := (subrouteSites_spec (forall₂_sameShape hsubroutes)).2.2
  have hstep : ∀ s ∈ subrouteSites vsr.spec.subroutes vsrNew.spec.subroutes,
      s.step (fun _ => 0) = s.size := by
    intro s hs
    simp [step, size, (hrendered s hs).1]
  rw [hsites, vsrWeightUpdates_eq]
  refine (same_updates_iff _ (fun _ => 0) _ _ _).trans ?_
  rw [← @startingIndex_eq_iff vsEx vsr vsrNew before after hname, vsrHasWeightChanges_eq]
  constructor
  · intro h
    by_cases hany : ∃ s ∈ subrouteSites vsr.spec.subroutes vsrNew.spec.subroutes, s.changed = true
    · obtain ⟨s, hs, hchanged⟩ := hany
      obtain ⟨pre, post, heq⟩ := append_of_mem hs
      have hnumber := (h pre s post heq hchanged).2
      rw [total_congr fun s' hs' => hstep s' (heq ▸ mem_append_left _ hs')] at hnumber
      exact .inr (Nat.add_right_cancel hnumber)
    · refine .inl (any_eq_false.mpr fun s hs hchanged => hany ⟨s, hs, hchanged⟩)
  · rintro (hnone | hstart) pre s post heq hchanged
    · exact absurd hchanged (any_eq_false.mp hnone s (heq ▸ by simp))
    · refine ⟨(hrendered s (heq ▸ by simp)).1, ?_⟩
      rw [hstart, total_congr fun s' hs' => hstep s' (heq ▸ mem_append_left _ hs')]

def dynamicConfigurator : VirtualServerConfigurator :=
  { VirtualServerConfigurator.plain with dynamicWeightChangesReload := true }

def teaOrCoffee (path : String) (tea coffee : Int) : Route where
  path
  splits := [
    { weight := tea, action := some { pass := "tea" } },
    { weight := coffee, action := some { pass := "coffee" } }]

def teaAndCoffee : List IngressController.Upstream := [
  { name := "tea", service := "tea-svc", port := 80 },
  { name := "coffee", service := "coffee-svc", port := 80 }]

def cafeWithSplits (tea coffee : Int) : VirtualServer where
  objectMeta := namedMeta "default" "cafe"
  spec := {
    host := "cafe.example.com"
    upstreams := teaAndCoffee
    routes := [teaOrCoffee "/hot" tea coffee, teaOrCoffee "/cold" tea coffee] }

def cafeWithDrinks : VirtualServer where
  objectMeta := namedMeta "default" "cafe"
  spec := {
    host := "cafe.example.com"
    routes := [{ path := "/hot", route := "hot/drinks" },
      { path := "/cold", route := "cold/drinks" }] }

def drinksWithSplits (nspace : ResourceName) (path : String) (tea coffee : Int) :
    VirtualServerRoute where
  objectMeta := { nspace, name := .of "drinks" }
  spec := {
    host := "cafe.example.com"
    upstreams := teaAndCoffee
    subroutes := [teaOrCoffee path tea coffee] }

/-- The splits of both routes change. -/
theorem not_countedAlike_cafe : ¬ CountedAlike (routeSites (cafeWithSplits 50 50).spec.routes
    (cafeWithSplits 80 20).spec.routes) := by
  intro hcounted
  have hhot : SplitSite.CountedAlike ⟨true, true, (teaOrCoffee "/hot" 50 50).splits,
      (teaOrCoffee "/hot" 80 20).splits⟩ :=
    (hcounted [_] ⟨true, true, (teaOrCoffee "/cold" 50 50).splits,
      (teaOrCoffee "/cold" 80 20).splits⟩ [] rfl (by decide)).2 _ mem_cons_self
  exact hhot ⟨rfl, by decide⟩

/-- The pushed weights choose the split client that is generated without dynamic weights. -/
theorem pushed_weights_choose_static_split (namer : VariableNamer) (i : Nat) (w : Fin 101)
    (action action' : Option Action) :
    let splits : List Split := [⟨w, action⟩, ⟨(100 - w : Nat), action'⟩]
    let dynamic := splitParts namer true splits i
    ∃ p sc, (dynamic.maps.flatMap (·.parameters)).find?
        (·.value = (weightUpdate namer i w (100 - w : Nat)).value) = some p ∧
      dynamic.splitClients.find? (·.variableName = p.result) = some sc ∧
      (splitParts namer false splits i).splitClients =
        [{ sc with variableName := namer.getNameForSplitClientVariable i }] := by
  have hw : w.val ∈ range splitClientAmountWhenWeightChangesDynamicReload := mem_range.mpr w.isLt
  have hname : ∀ j, namer.getNameOfSplitClientsForWeights i j (100 - j) =
      namer.getNameOfSplitClientsForWeights i w (100 - w) → j = w := by
    intro j heq
    have hvar : InternalVariable.splitClientsForWeights i j (100 - j) =
      .splitClientsForWeights i w (100 - w) := InternalVariable.text_inj heq
    injection hvar
  refine ⟨_, _, find?_of_unique (mem_flatMap.mpr ⟨_, mem_singleton_self _, mem_append_left _
    (mem_map_of_mem hw)⟩) (by simp [weightUpdate]) fun p hp heq => ?_,
    find?_of_unique (mem_map_of_mem hw) (by simp [splitClientForWeights]) fun sc hsc heq => ?_, ?_⟩
  · obtain ⟨m, hm, hp⟩ := mem_flatMap.mp hp
    obtain rfl := mem_singleton.mp hm
    obtain hp | hp := mem_append.mp hp
    · obtain ⟨j, -, rfl⟩ := mem_map.mp hp
      have hkey := (String.append_left_inj _).mp (of_decide_eq_true heq)
      rw [hname j (by simpa [VariableNamer.getNameOfSplitClientsForWeights, Int.repr,
        ← String.toList_inj] using hkey)]
    · obtain rfl := mem_singleton.mp hp
      simp [weightUpdate, VariableNamer.getNameOfKeyOfMapForWeights, ← String.toList_inj] at heq
  · obtain ⟨j, -, rfl⟩ := mem_map.mp hsc
    rw [hname j (of_decide_eq_true heq)]
  · simp [splitParts, isDynamicSplit, splitClientForWeights, distributions]

end IngressController
