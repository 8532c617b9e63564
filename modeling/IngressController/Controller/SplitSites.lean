import IngressController.Controller.WeightChanges
import IngressController.Generator.ClosedNames
import IngressController.Generator.HttpNames
import IngressController.Library.Renumbering

/-! # Changed weights and the generated configuration

The controller numbers the splits of both versions itself. Its numbers are those of the generated
configuration as long as it counts what the generator counts: the generator leaves out routes that
refer to VirtualServerRoutes, and the controller counts a changed split of a route twice.
-/

namespace IngressController

open Configs Offsets Version2 List

/-! ## Two-way splits of a configuration -/

/-- A part of what routes generate that only two-way splits have, one for each of them. -/
structure TwoWayPart {β : Type} (namer : VariableNamer) (dynamicReload : Bool)
    (part : RoutingParts → List β) (item : Nat × List Split → β) : Prop where
  join : ∀ ps, part (RoutingParts.join ps) = ps.flatMap part
  maps : ∀ ps maps, part { ps with maps := maps } = part ps
  empty : part {} = []
  splits : ∀ splits i, part (splitParts namer dynamicReload splits i) =
    if isDynamicSplit dynamicReload splits then [item (i, splits)] else []

section

variable {β : Type} {namer : VariableNamer} {dynamicReload : Bool} {part : RoutingParts → List β}
  {item : Nat × List Split → β}

theorem flatMap_ite (p : β → Bool) {γ : Type} (f : β → γ) (xs : List β) :
    xs.flatMap (fun x => if p x then [f x] else []) = (xs.filter p).map f := by
  induction xs with
  | nil => rfl
  | cons x xs ih =>
    rw [flatMap_cons, ih]
    cases hx : p x <;> simp [hx]

theorem TwoWayPart.staticParts (h : TwoWayPart namer dynamicReload part item) (e : Nat × Target) :
    part (staticParts namer dynamicReload e) =
      if isDynamicSplit dynamicReload e.2.splits then [item (e.1, e.2.splits)] else [] := by
  unfold Configs.staticParts
  by_cases hsplits : e.2.splits = []
  · simp [hsplits, isDynamicSplit, h.empty]
  · rw [if_neg hsplits, h.splits]

theorem TwoWayPart.routeParts (h : TwoWayPart namer dynamicReload part item)
    (e : Nat × Nat × Route) :
    part (routeParts namer dynamicReload e) =
      ((place (splitClientsAmount dynamicReload) e.1 (splitsOf e.2.2)).filter fun e =>
        isDynamicSplit dynamicReload e.2).map item := by
  have htargets : place (splitClientsAmount dynamicReload) e.1 (splitsOf e.2.2) =
      (placedTargets dynamicReload e).map fun e => (e.1, e.2.splits) := by
    rw [placedTargets, ← splits_targetsOf e.2.1, place_map]
  rw [htargets, filter_map, map_map]
  unfold Configs.routeParts
  rw [h.maps, h.join, flatMap_map]
  simp only [h.staticParts]
  exact flatMap_ite _ _ _

/-- The parts of all rendered routes, by their splits. -/
theorem TwoWayPart.numberedContexts {g : Generator}
    (h : TwoWayPart g.variableNamer g.vsc.dynamicWeightChangesReload part item) :
    (g.numberedContexts.flatMap fun e => part (g.partsOf e)) =
      ((place (splitClientsAmount g.vsc.dynamicWeightChangesReload) 0
        ((renderedRoutes g.vsEx).flatMap splitsOf)).filter fun e =>
          isDynamicSplit g.vsc.dynamicWeightChangesReload e.2).map item := by
  have hplaces : g.numberedContexts.flatMap (fun e =>
      place (splitClientsAmount g.vsc.dynamicWeightChangesReload) e.1 (splitsOf e.2.2)) =
      place (splitClientsAmount g.vsc.dynamicWeightChangesReload) 0
        ((renderedRoutes g.vsEx).flatMap splitsOf) := by
    have hroutes : (place matchesCount 0 (renderedRoutes g.vsEx)).flatMap
        (fun e => splitsOf e.2) = (renderedRoutes g.vsEx).flatMap splitsOf := by
      conv_rhs => rw [← map_snd_place matchesCount 0 (renderedRoutes g.vsEx), flatMap_map]
    rw [← hroutes, ← flatMap_place, Generator.numberedContexts, Generator.route_contexts]
    rfl
  rw [← hplaces, filter_flatMap, map_flatMap]
  exact flatMap_congr fun e _ => h.routeParts e

end

variable (namer : VariableNamer) (e : Nat × List Split)

def twoWayKeyVal : KeyVal where
  key := namer.getNameOfKeyvalKeyForSplitClientIndex e.1
  variableName := namer.getNameOfKeyvalForSplitClientIndex e.1
  zoneName := namer.getNameOfKeyvalZoneForSplitClientIndex e.1

def twoWaySplit : TwoWaySplitClients :=
  { twoWayKeyVal namer e with
    weights := e.2.map Split.weight
    splitClientsIndex := e.1 }

def twoWayZone : KeyValZone where
  name := namer.getNameOfKeyvalZoneForSplitClientIndex e.1
  size := splitClientsKeyValZoneSize
  state := keyvalZoneBasePath ++ "/" ++ namer.getNameOfKeyvalZoneForSplitClientIndex e.1 ++ ".json"

/-- The two-way splits of the rendered routes with their numbers. -/
def twoWaySplits (vsc : VirtualServerConfigurator) (vsEx : VirtualServerEx) :
    List (Nat × List Split) :=
  (place (splitClientsAmount vsc.dynamicWeightChangesReload) 0
    ((renderedRoutes vsEx).flatMap splitsOf)).filter fun e =>
      isDynamicSplit vsc.dynamicWeightChangesReload e.2

theorem twoWayPart_of_splitParts (dynamicReload : Bool) :
    TwoWayPart namer dynamicReload RoutingParts.twoWaySplitClients (twoWaySplit namer) ∧
      TwoWayPart namer dynamicReload RoutingParts.keyVals (twoWayKeyVal namer) ∧
      TwoWayPart namer dynamicReload RoutingParts.keyValZones (twoWayZone namer) := by
  refine ⟨⟨fun _ => rfl, fun _ _ => rfl, rfl, ?_⟩, ⟨fun _ => rfl, fun _ _ => rfl, rfl, ?_⟩,
    fun _ => rfl, fun _ _ => rfl, rfl, ?_⟩
  all_goals
    intro splits i
    unfold splitParts
    split <;> rfl

theorem twoWaySplits_of_generated {vsc : VirtualServerConfigurator} {vsEx : VirtualServerEx}
    {cfg : VirtualServerConfig} (h : generateVirtualServerConfig vsc vsEx = some cfg) :
    cfg.twoWaySplitClients =
        (twoWaySplits vsc vsEx).map (twoWaySplit (newVSVariableNamer vsEx.virtualServer)) ∧
      cfg.keyVals =
        (twoWaySplits vsc vsEx).map (twoWayKeyVal (newVSVariableNamer vsEx.virtualServer)) ∧
      ∃ zones, cfg.keyValZones =
        (twoWaySplits vsc vsEx).map (twoWayZone (newVSVariableNamer vsEx.virtualServer)) ++
          zones := by
  obtain ⟨⟨g, st⟩, hgenerated, rfl⟩ := Option.map_eq_some_iff.mp h
  obtain ⟨start, -, -, hstart, -⟩ := generateVirtualServer_spec hgenerated
  obtain ⟨hvsc, hvsEx, -⟩ := startGenerator_spec hstart
  obtain ⟨spec, cfgs, st', pages, hpolicies, hst, -, rfl⟩ := Generator.exists_generated hgenerated
  subst hvsc hvsEx
  have hrouting := hst.routing
  have hnumbered := Generator.numbered_zip (Generator.length_policiesOf hpolicies)
  refine ⟨?_, ?_, sessionZones (removeDuplicateOIDCProviders st'.oidcProviders), ?_⟩
  · refine Eq.trans ?_ (twoWayPart_of_splitParts _ _).1.numberedContexts
    rw [← hnumbered, ← hrouting.twoWaySplitClients]
    rfl
  · refine Eq.trans ?_ (twoWayPart_of_splitParts _ _).2.1.numberedContexts
    rw [← hnumbered, ← hrouting.keyVals]
    rfl
  · refine Eq.trans ?_ (congrArg (· ++ _) (twoWayPart_of_splitParts _ _).2.2.numberedContexts)
    rw [← hnumbered, ← hrouting.keyValZones]
    rfl

/-! ## Sites of splits -/

/-- Splits of both versions: whether their route is rendered, and whether they are those of the
route itself or of one of its matches. -/
structure SplitSite where
  rendered : Bool
  ofRoute : Bool
  old : List Split
  new : List Split

namespace SplitSite

def changed (s : SplitSite) : Bool := splitsHaveWeightChanges s.old s.new

def size (s : SplitSite) : Nat := if s.rendered then splitClientsAmount true s.new else 0

/-- By how much the controller advances, if changed splits advance it by `extra` more. -/
def step (extra : SplitSite → Nat) (s : SplitSite) : Nat :=
  splitClientsAmount true s.new + if s.changed then extra s else 0

def update (i : Nat) (s : SplitSite) : WeightUpdate :=
  weightUpdate namer i (weightAt s.new 0) (weightAt s.new 1)

end SplitSite

open SplitSite

/-- The splits of the matches of a route and its own, in the order they are numbered. -/
def sitesOf (rendered : Bool) (e : Route × Route) : List SplitSite :=
  (e.1.routeMatches.zip e.2.routeMatches).map (fun m =>
    ⟨rendered, false, m.1.splits, m.2.splits⟩) ++
    [⟨rendered, true, e.1.splits, e.2.splits⟩]

def routeSites (old new : List Route) : List SplitSite :=
  (old.zip new).flatMap fun e => sitesOf (rendersLocations e.2) e

def subrouteSites (old new : List Route) : List SplitSite := (old.zip new).flatMap (sitesOf true)

theorem splitClientsAmount_eq (splits : List Split) :
    splitClientsAmount true splits =
      if splits.length = 2 then splitClientAmountWhenWeightChangesDynamicReload
      else if splits.length > 0 then 1 else 0 := by
  unfold splitClientsAmount isDynamicSplit
  rcases splits with _ | ⟨_, _ | ⟨_, _ | _⟩⟩ <;> simp

theorem scanSplits_eq (extra : SplitSite → Nat) (scan : WeightScan) (s : SplitSite) :
    scanSplits namer (extra s) scan s.old s.new = {
      splitClientsIndex := scan.splitClientsIndex + s.step extra
      weightUpdates := scan.weightUpdates ++
        if s.changed then [s.update namer scan.splitClientsIndex] else [] } := by
  unfold scanSplits step changed splitsHaveWeightChanges
  rw [splitClientsAmount_eq]
  by_cases htwo : s.new.length = 2
  · cases hdiffer : weightsDiffer s.old s.new with
    | true =>
      simp [htwo, update]
      omega
    | false => simp [htwo]
  · simp only [htwo, if_false, decide_false, Bool.false_and, Bool.false_eq_true, append_nil,
      Nat.add_zero]
    split <;> rfl

/-- A scan numbers sites by what it advances and keeps those that changed. -/
theorem foldl_scanSplits (extra : SplitSite → Nat) (sites : List SplitSite) (scan : WeightScan) :
    (sites.foldl (fun scan s => scanSplits namer (extra s) scan s.old s.new) scan).weightUpdates =
      scan.weightUpdates ++ ((place (step extra) scan.splitClientsIndex sites).filter fun e =>
          e.2.changed).map fun e => e.2.update namer e.1 := by
  induction sites generalizing scan with
  | nil => simp
  | cons s sites ih =>
    rw [foldl_cons, ih, scanSplits_eq, place_cons]
    cases hchanged : s.changed <;> simp [hchanged]

/-- The extra advance in a VirtualServer. -/
def vsExtra (s : SplitSite) : Nat :=
  if s.ofRoute then splitClientAmountWhenWeightChangesDynamicReload else 0

theorem vsWeightUpdates_eq (vsOld vsNew : VirtualServer) :
    vsWeightUpdates vsOld vsNew =
      ((place (step vsExtra) 0 (routeSites vsOld.spec.routes vsNew.spec.routes)).filter
        fun e => e.2.changed).map fun e => e.2.update (newVSVariableNamer vsNew) e.1 := by
  have hroute : ∀ (scan : WeightScan) (e : Route × Route),
      scanRoute (newVSVariableNamer vsNew) scan e =
        (sitesOf (rendersLocations e.2) e).foldl (fun scan s =>
          scanSplits (newVSVariableNamer vsNew) (vsExtra s) scan s.old s.new) scan := by
    intro scan e
    rw [sitesOf, foldl_append, foldl_map]
    rfl
  have hfold := foldl_scanSplits (newVSVariableNamer vsNew) vsExtra
    (routeSites vsOld.spec.routes vsNew.spec.routes) {}
  rw [routeSites, foldl_flatMap] at hfold
  simp only [← hroute] at hfold
  exact hfold

theorem length_zeroOutSplitWeights (splits : List Split) :
    (zeroOutSplitWeights splits).length = splits.length := by
  unfold zeroOutSplitWeights
  split <;> simp

/-- Routes that differ in weights only: the same branches, the same matches, the same splits. -/
structure SameShape (old new : Route) : Prop where
  renders : rendersLocations old = rendersLocations new
  routeMatches : Forall₂ (fun m m' : Match => m.splits.length = m'.splits.length)
    old.routeMatches new.routeMatches
  splits : old.splits.length = new.splits.length

theorem sameShape_of_zeroOut {old new : Route}
    (h : zeroOutRouteSplitWeights old = zeroOutRouteSplitWeights new) : SameShape old new := by
  have hmatches := congrArg Route.routeMatches h
  have hsplits := congrArg (fun r : Route => r.splits.length) h
  have hroute := congrArg Route.route h
  have hselector := congrArg Route.routeSelector h
  dsimp only [zeroOutRouteSplitWeights] at hmatches hsplits hroute hselector
  rw [length_zeroOutSplitWeights, length_zeroOutSplitWeights] at hsplits
  refine ⟨by simp [rendersLocations, hroute, hselector], ?_, hsplits⟩
  have hforall : Forall₂ (fun m m' : Match =>
      ({ m with splits := zeroOutSplitWeights m.splits } : Match) =
        { m' with splits := zeroOutSplitWeights m'.splits }) old.routeMatches new.routeMatches := by
    rw [← forall₂_eq_eq_eq] at hmatches
    simpa [forall₂_map_left_iff, forall₂_map_right_iff] using hmatches
  refine hforall.imp fun m m' hm => ?_
  have hlength := congrArg (fun m : Match => m.splits.length) hm
  dsimp only at hlength
  rwa [length_zeroOutSplitWeights, length_zeroOutSplitWeights] at hlength

variable {old new : List Route}

theorem forall₂_sameShape
    (h : old.map zeroOutRouteSplitWeights = new.map zeroOutRouteSplitWeights) :
    Forall₂ SameShape old new := by
  rw [← forall₂_eq_eq_eq, forall₂_map_left_iff, forall₂_map_right_iff] at h
  exact h.imp fun _ _ => sameShape_of_zeroOut

theorem forall₂_sameShape_refl (rs : List Route) : Forall₂ SameShape rs rs :=
  forall₂_sameShape rfl

theorem sitesOf_spec {old new : Route} (h : SameShape old new) (rendered : Bool) :
    (sitesOf rendered (old, new)).map SplitSite.old = splitsOf old ∧
      (sitesOf rendered (old, new)).map SplitSite.new = splitsOf new ∧
      ∀ s ∈ sitesOf rendered (old, new), s.rendered = rendered ∧ s.old.length = s.new.length := by
  have hlength := h.routeMatches.length_eq
  refine ⟨?_, ?_, ?_⟩
  · have hmatches : (old.routeMatches.zip new.routeMatches).map (fun m => m.1.splits) =
        old.routeMatches.map Match.splits := by
      conv_rhs => rw [← map_fst_zip (Nat.le_of_eq hlength), map_map]
      rfl
    rw [sitesOf, map_append, map_map, splitsOf, ← hmatches]
    rfl
  · have hmatches : (old.routeMatches.zip new.routeMatches).map (fun m => m.2.splits) =
        new.routeMatches.map Match.splits := by
      conv_rhs => rw [← map_snd_zip (Nat.le_of_eq hlength.symm), map_map]
      rfl
    rw [sitesOf, map_append, map_map, splitsOf, ← hmatches]
    rfl
  · intro s hs
    rcases mem_append.mp hs with hs | hs
    · obtain ⟨m, hm, rfl⟩ := mem_map.mp hs
      exact ⟨rfl, (forall₂_iff_zip.mp h.routeMatches).2 hm⟩
    · obtain rfl := mem_singleton.mp hs
      exact ⟨rfl, h.splits⟩

/-- The splits of rendered routes, version by version. -/
theorem routeSites_spec (h : Forall₂ SameShape old new) :
    ((routeSites old new).filter SplitSite.rendered).map SplitSite.old =
        (old.filter rendersLocations).flatMap splitsOf ∧
      ((routeSites old new).filter SplitSite.rendered).map SplitSite.new =
        (new.filter rendersLocations).flatMap splitsOf ∧
      ∀ s ∈ routeSites old new, s.old.length = s.new.length := by
  induction h with
  | nil => exact ⟨rfl, rfl, by simp [routeSites]⟩
  | @cons r r' old new hr h ih =>
    obtain ⟨hold, hnew, hlength⟩ := ih
    obtain ⟨hold', hnew', hsites⟩ := sitesOf_spec hr (rendersLocations r')
    have hcons : routeSites (r :: old) (r' :: new) =
        sitesOf (rendersLocations r') (r, r') ++ routeSites old new := rfl
    have hfilter : (sitesOf (rendersLocations r') (r, r')).filter rendered =
        if rendersLocations r' then sitesOf (rendersLocations r') (r, r') else [] := by
      split
      · rename_i hrenders
        exact filter_eq_self.mpr fun s hs => (hsites s hs).1.trans hrenders
      · rename_i hrenders
        exact filter_eq_nil_iff.mpr fun s hs => by rwa [(hsites s hs).1]
    rw [hcons, filter_append, map_append, map_append, hold, hnew, hfilter,
      filter_cons, filter_cons, hr.renders]
    refine ⟨?_, ?_, forall_mem_append.mpr ⟨fun s hs => (hsites s hs).2, hlength⟩⟩
    · split <;> simp [hold']
    · split <;> simp [hnew']

theorem subrouteSites_spec (h : Forall₂ SameShape old new) :
    (subrouteSites old new).map SplitSite.old = old.flatMap splitsOf ∧
      (subrouteSites old new).map SplitSite.new = new.flatMap splitsOf ∧
      ∀ s ∈ subrouteSites old new, s.rendered = true ∧ s.old.length = s.new.length := by
  induction h with
  | nil => exact ⟨rfl, rfl, by simp [subrouteSites]⟩
  | @cons r r' old new hr h ih =>
    obtain ⟨hold, hnew, hlength⟩ := ih
    obtain ⟨hold', hnew', hsites⟩ := sitesOf_spec hr true
    have hcons : subrouteSites (r :: old) (r' :: new) =
        sitesOf true (r, r') ++ subrouteSites old new := rfl
    rw [hcons, map_append, map_append, hold, hnew, hold', hnew']
    exact ⟨rfl, rfl, forall_mem_append.mpr ⟨hsites, hlength⟩⟩

structure SameVersions (old new : VirtualServerEx) : Prop where
  routes : old.virtualServer.spec.routes.map zeroOutRouteSplitWeights =
    new.virtualServer.spec.routes.map zeroOutRouteSplitWeights
  subroutes : ((subroutesOf old.virtualServerRoutes).map Prod.snd).map zeroOutRouteSplitWeights =
    ((subroutesOf new.virtualServerRoutes).map Prod.snd).map zeroOutRouteSplitWeights

def allSites (old new : VirtualServerEx) : List SplitSite :=
  routeSites old.virtualServer.spec.routes new.virtualServer.spec.routes ++
    subrouteSites ((subroutesOf old.virtualServerRoutes).map Prod.snd)
      ((subroutesOf new.virtualServerRoutes).map Prod.snd)

theorem allSites_spec {old new : VirtualServerEx} (h : SameVersions old new) :
    ((allSites old new).filter SplitSite.rendered).map SplitSite.old =
        (renderedRoutes old).flatMap splitsOf ∧
      ((allSites old new).filter SplitSite.rendered).map SplitSite.new =
        (renderedRoutes new).flatMap splitsOf ∧
      ∀ s ∈ allSites old new, s.old.length = s.new.length := by
  obtain ⟨hold, hnew, hlength⟩ := routeSites_spec (forall₂_sameShape h.routes)
  obtain ⟨hold', hnew', hlength'⟩ := subrouteSites_spec (forall₂_sameShape h.subroutes)
  rw [allSites, filter_append, map_append, map_append, hold, hnew,
    filter_eq_self.mpr fun s hs => (hlength' s hs).1, hold', hnew', renderedRoutes,
    renderedRoutes, flatMap_append, flatMap_append]
  exact ⟨rfl, rfl, forall_mem_append.mpr ⟨hlength, fun s hs => (hlength' s hs).2⟩⟩

/-- The value of a two-way split that has other weights than before: the zone and the key of the
configuration, and the key of its map for the new weights. -/
def IsAssigned (cfgOld cfgNew : VirtualServerConfig) (u : WeightUpdate) : Prop :=
  ∃ (i : Nat) (old new : TwoWaySplitClients) (keyVal : KeyVal) (zone : KeyValZone),
    cfgOld.twoWaySplitClients[i]? = some old ∧ cfgNew.twoWaySplitClients[i]? = some new ∧
      cfgNew.keyVals[i]? = some keyVal ∧ cfgNew.keyValZones[i]? = some zone ∧
      old.weights ≠ new.weights ∧
      u = {
        zone := zone.name
        key := keyVal.key
        value := namer.getNameOfKeyOfMapForWeights new.splitClientsIndex (new.weights.getD 0 0)
          (new.weights.getD 1 0) }

section

variable {vsc : VirtualServerConfigurator} {exOld exNew : VirtualServerEx}

/-- The two-way splits of both versions with their common numbers. -/
def twoWaySites (old new : VirtualServerEx) : List (Nat × SplitSite) :=
  (place size 0 (allSites old new)).filter fun e =>
    e.2.rendered && isDynamicSplit true e.2.new

theorem twoWaySplits_eq (hdynamic : vsc.dynamicWeightChangesReload = true)
    (h : SameVersions exOld exNew) :
    twoWaySplits vsc exOld = (twoWaySites exOld exNew).map (fun e => (e.1, e.2.old)) ∧
      twoWaySplits vsc exNew = (twoWaySites exOld exNew).map fun e => (e.1, e.2.new) := by
  obtain ⟨hold, hnew, hlength⟩ := allSites_spec h
  -- numbers and kinds of splits depend on their lengths only
  have hplaces : ∀ version : SplitSite → List Split,
      (∀ s ∈ allSites exOld exNew, (version s).length = s.new.length) →
      (place (splitClientsAmount true) 0
        (((allSites exOld exNew).filter rendered).map version)).filter
          (fun e => isDynamicSplit true e.2) =
        (twoWaySites exOld exNew).map fun e => (e.1, version e.2) := by
    intro version hversion
    have hamount : ∀ s ∈ (allSites exOld exNew).filter rendered,
        splitClientsAmount true (version s) = s.size := by
      intro s hs
      obtain ⟨hs, hrendered⟩ := mem_filter.mp hs
      rw [size, if_pos hrendered, splitClientsAmount_eq, splitClientsAmount_eq, hversion s hs]
    have hnone : ∀ s : SplitSite, s.rendered = false → s.size = 0 := by
      intro s hs
      simp [size, hs]
    rw [place_map, place_congr hamount, place_filter hnone, filter_map, filter_filter, twoWaySites]
    congr 1
    refine filter_congr fun e he => ?_
    have hsame := hversion e.2 (mem_of_mem_place he)
    simp [isDynamicSplit, hsame, Bool.and_comm]
  unfold twoWaySplits
  rw [hdynamic, ← hold, ← hnew]
  exact ⟨hplaces _ hlength, hplaces _ fun _ _ => rfl⟩

theorem weights_ne_iff {old new : List Split} (hold : old.length = new.length)
    (hnew : new.length = 2) :
    old.map Split.weight ≠ new.map Split.weight ↔ splitsHaveWeightChanges old new = true := by
  obtain ⟨t, t', rfl⟩ := length_eq_two.mp hnew
  obtain ⟨s, s', rfl⟩ := length_eq_two.mp (hold.trans hnew)
  have hchanges : splitsHaveWeightChanges [s, s'] [t, t'] = true ↔
      t.weight ≠ s.weight ∨ t'.weight ≠ s'.weight := by
    simp [splitsHaveWeightChanges, weightsDiffer, weightAt]
  rw [hchanges]
  simp only [map_cons, map_nil, ne_eq, cons.injEq, and_true, not_and_or]
  rw [@eq_comm _ s.weight, @eq_comm _ s'.weight]

theorem update_eq (e : Nat × SplitSite) :
    e.2.update namer e.1 = {
      zone := (twoWayZone namer (e.1, e.2.new)).name
      key := (twoWayKeyVal namer (e.1, e.2.new)).key
      value := namer.getNameOfKeyOfMapForWeights
        (twoWaySplit namer (e.1, e.2.new)).splitClientsIndex
        ((twoWaySplit namer (e.1, e.2.new)).weights.getD 0 0)
        ((twoWaySplit namer (e.1, e.2.new)).weights.getD 1 0) } := by
  have hweight : ∀ i, (e.2.new.map Split.weight).getD i 0 = weightAt e.2.new i := by
    intro i
    rw [getD_eq_getElem?_getD, getElem?_map]
    rfl
  rw [twoWaySplit, hweight, hweight]
  rfl

theorem isAssigned_iff (hdynamic : vsc.dynamicWeightChangesReload = true)
    (h : SameVersions exOld exNew) {cfgOld cfgNew : VirtualServerConfig}
    (hold : generateVirtualServerConfig vsc exOld = some cfgOld)
    (hnew : generateVirtualServerConfig vsc exNew = some cfgNew) {u : WeightUpdate} :
    IsAssigned (newVSVariableNamer exNew.virtualServer) cfgOld cfgNew u ↔
      u ∈ ((place SplitSite.size 0 (allSites exOld exNew)).filter fun e =>
        e.2.changed && e.2.rendered).map fun e =>
          e.2.update (newVSVariableNamer exNew.virtualServer) e.1 := by
  obtain ⟨hclientsOld, -⟩ := twoWaySplits_of_generated hold
  obtain ⟨hclients, hkeyVals, zones, hzones⟩ := twoWaySplits_of_generated hnew
  obtain ⟨hsplitsOld, hsplits⟩ := twoWaySplits_eq hdynamic h
  obtain ⟨-, -, hlength⟩ := allSites_spec h
  rw [hsplitsOld, map_map] at hclientsOld
  rw [hsplits, map_map] at hclients hkeyVals hzones
  have hsite : ∀ e ∈ twoWaySites exOld exNew, e ∈ place size 0 (allSites exOld exNew) ∧
      e.2.rendered = true ∧ (e.2.old.map Split.weight ≠ e.2.new.map Split.weight ↔
        e.2.changed = true) := by
    intro e he
    obtain ⟨he, htwo⟩ := mem_filter.mp he
    rw [Bool.and_eq_true] at htwo
    exact ⟨he, htwo.1, weights_ne_iff (hlength e.2 (mem_of_mem_place he))
      (by simpa [isDynamicSplit] using htwo.2)⟩
  rw [mem_map]
  constructor
  · rintro ⟨i, old, new, keyVal, zone, hiOld, hi, hikeyVal, hizone, hweights, rfl⟩
    rw [hclients, getElem?_map] at hi
    obtain ⟨e, he, rfl⟩ := Option.map_eq_some_iff.mp hi
    obtain ⟨hplace, hrendered, hchanged⟩ := hsite e (mem_of_getElem? he)
    rw [hclientsOld, getElem?_map, he] at hiOld
    rw [hkeyVals, getElem?_map, he] at hikeyVal
    rw [hzones, List.getElem?_append_left (by simpa using (List.getElem?_eq_some_iff.mp he).1),
      getElem?_map, he] at hizone
    cases hiOld
    cases hikeyVal
    cases hizone
    refine ⟨e, mem_filter.mpr ⟨hplace, ?_⟩, ?_⟩
    · rw [hrendered, Bool.and_true]
      exact hchanged.mp hweights
    · exact update_eq _ e
  · rintro ⟨e, he, rfl⟩
    obtain ⟨hplace, hboth⟩ := mem_filter.mp he
    rw [Bool.and_eq_true] at hboth
    have hin : e ∈ twoWaySites exOld exNew := by
      refine mem_filter.mpr ⟨hplace, ?_⟩
      have hchanged := hboth.1
      simp only [changed, splitsHaveWeightChanges, Bool.and_eq_true] at hchanged
      rw [hboth.2, Bool.true_and]
      simpa [isDynamicSplit] using hchanged.1
    obtain ⟨i, hi⟩ := mem_iff_getElem?.mp hin
    obtain ⟨-, -, hchanged⟩ := hsite e hin
    have hget : ∀ {β : Type} (f : Nat × SplitSite → β),
        ((twoWaySites exOld exNew).map f)[i]? = some (f e) := by simp [hi]
    refine ⟨i, _, _, _, _, (congrArg (·[i]?) hclientsOld).trans (hget _),
      (congrArg (·[i]?) hclients).trans (hget _), (congrArg (·[i]?) hkeyVals).trans (hget _), ?_,
      hchanged.mpr hboth.1, update_eq _ e⟩
    rw [hzones, List.getElem?_append_left (by simpa using (List.getElem?_eq_some_iff.mp hi).1)]
    exact hget _

end

theorem splitsDefined_zeroOut {splits : List Split} :
    SplitsDefined (zeroOutSplitWeights splits) ↔ SplitsDefined splits := by
  unfold zeroOutSplitWeights SplitsDefined
  split
  · exact forall_mem_map
  · rfl

theorem targetDefined_zeroOut {splits : List Split} {action : Option Action} :
    TargetDefined (zeroOutSplitWeights splits) action ↔ TargetDefined splits action := by
  unfold TargetDefined
  rw [← length_pos_iff, ← length_pos_iff, length_zeroOutSplitWeights]

theorem definedRoute_zeroOut {r : Route} :
    DefinedRoute (zeroOutRouteSplitWeights r) ↔ DefinedRoute r := by
  constructor
  · intro h
    have hsplits := h.matchSplits
    have htarget := h.target
    simp only [zeroOutRouteSplitWeights, forall_mem_map] at hsplits htarget
    exact ⟨⟨splitsDefined_zeroOut.mp h.splits,
      fun m hm => splitsDefined_zeroOut.mp (hsplits m hm),
      fun m hm => targetDefined_zeroOut.mp (htarget m hm)⟩, h.pages⟩
  · intro h
    refine ⟨⟨splitsDefined_zeroOut.mpr h.splits, ?_, ?_⟩, h.pages⟩
    · simp only [zeroOutRouteSplitWeights, forall_mem_map]
      exact fun m hm => splitsDefined_zeroOut.mpr (h.matchSplits m hm)
    · simp only [zeroOutRouteSplitWeights, forall_mem_map]
      exact fun m hm => targetDefined_zeroOut.mpr (h.target m hm)

section

variable {vsc : VirtualServerConfigurator} {exOld exNew : VirtualServerEx}

theorem SameVersions.allRoutes (h : SameVersions exOld exNew) :
    (allRoutes exOld).map zeroOutRouteSplitWeights =
      (allRoutes exNew).map zeroOutRouteSplitWeights := by
  rw [Configs.allRoutes, Configs.allRoutes, map_append, map_append, h.routes, h.subroutes]

theorem SameVersions.renderedRoutes (h : SameVersions exOld exNew) :
    (renderedRoutes exOld).map zeroOutRouteSplitWeights =
      (renderedRoutes exNew).map zeroOutRouteSplitWeights := by
  have hfilter : ∀ rs : List Route, (rs.filter rendersLocations).map zeroOutRouteSplitWeights =
      (rs.map zeroOutRouteSplitWeights).filter rendersLocations := by
    intro rs
    rw [filter_map]
    rfl
  rw [Configs.renderedRoutes, Configs.renderedRoutes, map_append, map_append, hfilter,
    hfilter, h.routes, h.subroutes]

/-- Both versions are generated exactly if no subroute has a selector. -/
theorem generated_versions_iff (haccepted : AcceptedSpecs exOld) (h : SameVersions exOld exNew)
    (hold : CompleteInputs vsc exOld) (hnew : CompleteInputs vsc exNew) :
    ((generateVirtualServerConfig vsc exOld).isSome ∧
        (generateVirtualServerConfig vsc exNew).isSome) ↔
      ∀ vsr ∈ exOld.virtualServerRoutes, ∀ r ∈ vsr.spec.subroutes, r.routeSelector = none := by
  have hdefined : ∀ r ∈ allRoutes exOld, DefinedRoute r := fun r hr => haccepted.definedRoute hr
  have hdefined' : ∀ r ∈ allRoutes exNew, DefinedRoute r := by
    have hzero : ∀ r ∈ (allRoutes exNew).map zeroOutRouteSplitWeights, DefinedRoute r := by
      rw [← h.allRoutes, forall_mem_map]
      exact fun r hr => definedRoute_zeroOut.mpr (hdefined r hr)
    exact fun r hr => definedRoute_zeroOut.mp (forall_mem_map.mp hzero r hr)
  have htargets : ∀ rs : List Route, (∀ r ∈ rs, TargetDefined r.splits r.action) ↔
      ∀ r ∈ rs.map zeroOutRouteSplitWeights, TargetDefined r.splits r.action := by
    intro rs
    rw [forall_mem_map]
    exact forall₂_congr fun r _ => targetDefined_zeroOut.symm
  rw [generateVirtualServerConfig, generateVirtualServerConfig, Option.isSome_map,
    Option.isSome_map, isSome_generateVirtualServer_iff hdefined hold,
    isSome_generateVirtualServer_iff hdefined' hnew, htargets (Configs.renderedRoutes exNew),
    ← h.renderedRoutes, ← htargets, and_self]
  exact forall_targetDefined_iff haccepted

end

end IngressController
