import Mathlib.Data.List.Forall2
import IngressController.Generator.InternalNames
import IngressController.Generator.Routing
import IngressController.Library.GoPanic

/-! # Targets of a route

The matches of a route and its default, or the route itself if it has no matches, are targets. The
three branches for a route are one loop over its targets, each of which becomes a location or
split clients.
-/

namespace IngressController.Configs

open GoString Version2 GoPanic RoutingParts
open Option (bind_eq_bind bind_some map_some bind_eq_some_iff)

namespace RoutingParts

variable (a : RoutingParts) (b : RoutingParts)

theorem append_def : a ++ b = a.append b := rfl

@[simp] theorem maps_append : (a ++ b).maps = a.maps ++ b.maps := rfl

@[simp] theorem locations_append : (a ++ b).locations = a.locations ++ b.locations := rfl

@[simp] theorem splitClients_append :
    (a ++ b).splitClients = a.splitClients ++ b.splitClients := rfl

@[simp] theorem returnLocations_append :
    (a ++ b).returnLocations = a.returnLocations ++ b.returnLocations := rfl

def join (parts : List RoutingParts) : RoutingParts where
  maps := parts.flatMap maps
  locations := parts.flatMap locations
  splitClients := parts.flatMap splitClients
  returnLocations := parts.flatMap returnLocations
  keyValZones := parts.flatMap keyValZones
  keyVals := parts.flatMap keyVals
  twoWaySplitClients := parts.flatMap twoWaySplitClients

theorem append_join_nil : a ++ join [] = a := by
  simp [append_def, append, join]

theorem append_join_cons (p : RoutingParts) (ps : List RoutingParts) :
    a ++ join (p :: ps) = (a ++ p) ++ join ps := by
  simp [append_def, append, join]

theorem nil_append : ({} : RoutingParts) ++ a = a := by
  simp [append_def, append]

end RoutingParts

/-- Where requests of a route may end. A target of a route with matches has an internal location,
which is used if it has an action. -/
structure Target where
  location : Option InternalLocation
  routePath : String := ""
  splits : List Split
  action : Option Action

def Target.path (t : Target) : String := (t.location.map InternalLocation.text).getD t.routePath

def Target.internal (t : Target) : Bool := t.location.isSome

def matchTargetOf (index : Nat) (e : Match × Nat) : Target where
  location := some (.routeMatch index e.2)
  splits := e.1.splits
  action := e.1.action

def defaultTargetOf (index : Nat) (r : Route) : Target where
  location := if r.routeMatches ≠ [] then some (.matchDefault index) else none
  routePath := r.path
  splits := r.splits
  action := r.action

variable (index : Nat)

theorem defaultTargetOf_of_matches {r : Route} (h : r.routeMatches ≠ []) :
    (defaultTargetOf index r).path = defaultLocationPath index ∧
      (defaultTargetOf index r).internal = true := by
  simp [defaultTargetOf, Target.path, Target.internal, h, InternalLocation.text]

theorem defaultTargetOf_of_no_matches {r : Route} (h : r.routeMatches = []) :
    (defaultTargetOf index r).path = r.path ∧ (defaultTargetOf index r).internal = false := by
  simp [defaultTargetOf, Target.path, Target.internal, h]

def targetsOf (index : Nat) (r : Route) : List Target :=
  r.routeMatches.zipIdx.map (matchTargetOf index) ++ [defaultTargetOf index r]

section

variable (params : LocationParams) (namer : VariableNamer) (dynamicReload : Bool)
  (scIndex retLocIndex : Nat)

def partsAt (t : Target) : Option RoutingParts :=
  if t.splits = [] then actionParts params t.path t.action t.internal retLocIndex
  else generateSplits params namer dynamicReload scIndex retLocIndex t.splits

/-- The parts of targets, each numbered by those before it. -/
def runTargets : Nat → Nat → List Target → Option (List RoutingParts)
  | _, _, [] => some []
  | scIndex, retLocIndex, t :: ts => do
      let parts ← partsAt params namer dynamicReload scIndex retLocIndex t
      let rest ← runTargets (scIndex + parts.splitClients.length)
        (retLocIndex + parts.returnLocations.length) ts
      some (parts :: rest)

def matchMaps (index scIndex : Nat) (r : Route) : List Map :=
  if r.routeMatches ≠ [] then
    conditionMaps namer index r.routeMatches ++ [mainMap namer dynamicReload index scIndex r]
  else []

def redirectOf (index scIndex : Nat) (r : Route) : Option InternalRedirectLocation :=
  if r.routeMatches ≠ [] then
    some {
      path := generatePath r.path
      destination := namer.getNameForVariableForMatchesRouteMainMap index }
  else if r.splits ≠ [] then
    some {
      path := generatePath r.path
      destination := splitVariable namer dynamicReload r.splits scIndex }
  else none

theorem targetParts_eq (t : Target) (ht : t.internal = true) (acc : RoutingParts) :
    targetParts params namer dynamicReload scIndex retLocIndex t.path t.splits t.action acc =
      (partsAt params namer dynamicReload (scIndex + acc.splitClients.length)
        (retLocIndex + acc.returnLocations.length) t).map (acc ++ ·) := by
  unfold targetParts partsAt
  rw [ht]
  by_cases hsplits : t.splits = [] <;> simp [hsplits, Option.map_eq_bind, Function.comp_def]

/-- The loop over targets that are internal locations. -/
theorem runTargets_append (ts : List Target) (t : Target) :
    runTargets params namer dynamicReload scIndex retLocIndex (ts ++ [t]) =
      (runTargets params namer dynamicReload scIndex retLocIndex ts).bind fun parts =>
        (partsAt params namer dynamicReload (scIndex + (join parts).splitClients.length)
          (retLocIndex + (join parts).returnLocations.length) t).map
            fun p => parts ++ [p] := by
  induction ts generalizing scIndex retLocIndex with
  | nil => simp [runTargets, join, Option.map_eq_bind, Function.comp_def]
  | cons t' ts ih =>
    simp only [List.cons_append, runTargets, ih, bind_eq_bind, Option.bind_assoc]
    congr 1
    funext parts
    cases runTargets params namer dynamicReload (scIndex + parts.splitClients.length)
        (retLocIndex + parts.returnLocations.length) ts with
    | none => rfl
    | some rest =>
      simp only [bind_some, join, List.flatMap_cons, List.length_append, Nat.add_assoc]
      cases partsAt params namer dynamicReload _ _ t <;> rfl

theorem matches_foldlM (ms : List Match) (k : Nat) (acc : RoutingParts) :
    (ms.zipIdx k).foldlM (matchStep params namer dynamicReload index scIndex retLocIndex) acc =
      (runTargets params namer dynamicReload (scIndex + acc.splitClients.length)
        (retLocIndex + acc.returnLocations.length) ((ms.zipIdx k).map (matchTargetOf index))).map
          fun parts => acc ++ join parts := by
  induction ms generalizing k acc with
  | nil => simp [runTargets, append_join_nil]
  | cons m ms ih =>
    have hstep : matchStep params namer dynamicReload index scIndex retLocIndex acc (m, k) = _ :=
      targetParts_eq params namer dynamicReload scIndex retLocIndex (matchTargetOf index (m, k))
        rfl acc
    rw [List.zipIdx_cons, List.foldlM_cons, List.map_cons, runTargets, hstep]
    cases partsAt params namer dynamicReload (scIndex + acc.splitClients.length)
        (retLocIndex + acc.returnLocations.length) _ with
    | none => rfl
    | some parts =>
      simp only [map_some, bind_eq_bind, bind_some, ih,
        splitClients_append, returnLocations_append,
        List.length_append, Nat.add_assoc]
      cases runTargets params namer dynamicReload _ _ _ with
      | none => rfl
      | some rest => simp [append_join_cons]

/-- The routing of a route is the loop over its targets. -/
theorem generateRouting_eq (index : RoutingIndex) (r : Route) :
    generateRouting params namer dynamicReload index r =
      (runTargets params namer dynamicReload index.splitClients index.returnLocations
        (targetsOf index.matchesRoutes r)).map fun parts => {
          toRoutingParts := { join parts with
            maps := matchMaps namer dynamicReload index.matchesRoutes index.splitClients r ++
              (join parts).maps }
          internalRedirectLocation :=
            redirectOf namer dynamicReload index.matchesRoutes index.splitClients r } := by
  unfold generateRouting
  rw [targetsOf, runTargets_append]
  by_cases hmatches : r.routeMatches = []
  · obtain ⟨hpath, hinternal⟩ := defaultTargetOf_of_no_matches index.matchesRoutes hmatches
    have hsplits : (defaultTargetOf index.matchesRoutes r).splits = r.splits := rfl
    have haction : (defaultTargetOf index.matchesRoutes r).action = r.action := rfl
    rw [if_neg (not_not.mpr hmatches)]
    simp only [hmatches, List.zipIdx_nil, List.map_nil, runTargets, bind_some, partsAt,
      hpath, hinternal, hsplits, haction, matchMaps, redirectOf, join]
    by_cases hsplits : r.splits = []
    · rw [if_neg (not_not.mpr hsplits), if_pos hsplits]
      cases hparts : actionParts params r.path r.action false index.returnLocations with
      | none => simp [hparts]
      | some parts => simp [hparts, hsplits]
    · rw [if_pos hsplits, if_neg hsplits, generateDefaultSplitsConfig]
      cases hparts : generateSplits params namer dynamicReload index.splitClients
          index.returnLocations r.splits with
      | none => simp [hparts]
      | some parts => simp [hparts, hsplits]
  · obtain ⟨hpath, hinternal⟩ := defaultTargetOf_of_matches index.matchesRoutes hmatches
    rw [if_pos hmatches, generateMatchesConfig, matchesParts, matches_foldlM]
    simp only [List.length_nil, Nat.add_zero, nil_append]
    cases runTargets params namer dynamicReload index.splitClients index.returnLocations
        (r.routeMatches.zipIdx.map (matchTargetOf index.matchesRoutes)) with
    | none => rfl
    | some parts =>
      have hdefault := targetParts_eq params namer dynamicReload index.splitClients
        index.returnLocations (defaultTargetOf index.matchesRoutes r) hinternal
        (join parts)
      rw [hpath] at hdefault
      have hdefault : targetParts params namer dynamicReload index.splitClients
        index.returnLocations (defaultLocationPath index.matchesRoutes) r.splits r.action
          (join parts) = _ := hdefault
      simp only [map_some, bind_eq_bind, bind_some, hdefault]
      cases partsAt params namer dynamicReload _ _ (defaultTargetOf index.matchesRoutes r) with
      | none => rfl
      | some p =>
        simp [matchMaps, redirectOf, hmatches, join, append_def, append]

end

theorem mem_conditionMaps {namer : VariableNamer} {index : Nat} {ms : List Match} {cm : Map} :
    cm ∈ conditionMaps namer index ms ↔ ∃ i m j c, ms[i]? = some m ∧ m.conditions[j]? = some c ∧
      cm = conditionMap namer index i j m.conditions.length c := by
  simp only [conditionMaps, List.mem_flatMap, List.mem_map, Prod.exists,
    List.mem_zipIdx_iff_getElem?]
  constructor
  · rintro ⟨m, i, hm, c, j, hc, rfl⟩
    exact ⟨i, m, j, c, hm, hc, rfl⟩
  · rintro ⟨i, m, j, c, hm, hc, rfl⟩
    exact ⟨m, i, hm, c, j, hc, rfl⟩

variable {path : String}

theorem generatePath_of_slash (h : path.toList.head? = some '/') : generatePath path = path := by
  cases hpath : path.toList with
  | nil => simp [hpath] at h
  | cons c cs =>
    obtain rfl : c = '/' := by simpa [hpath] using h
    simp [generatePath, hasPrefix, hpath]

def isReturn (action : Option Action) : Bool :=
  action.any fun a => a.redirect.isNone && a.ret.isSome

/-- Where the error pages of a location lead. -/
inductive LeadsTo (params : LocationParams) (action : Option Action) (retLocIndex : Nat)
    (page : Version2.ErrorPage) : Prop where
  | redirect (a : Action) (redirect : ActionRedirect) (haction : action = some a)
      (hredirect : a.redirect = some redirect) (hname : page.name = redirect.url)
  | ret (hreturn : isReturn action = true) (hname : page.name = returnLocationName retLocIndex)
  | page (pages : List Version2.ErrorPage)
      (hpages : generateErrorPages params.errorPages.index params.errorPages.pages = some pages)
      (hmem : page ∈ pages)

section

variable {params : LocationParams} {namer : VariableNamer} {dynamicReload : Bool}
  {scIndex retLocIndex : Nat} {parts : RoutingParts} {t : Target}

/-- The path of a location, the name of its return location and where its error pages lead. -/
theorem locationOfAction_spec {action : Option Action} {internal : Bool} {loc : Location}
    {returnLoc : Option ReturnLocation}
    (h : locationOfAction params path action internal retLocIndex = some (loc, returnLoc)) :
    loc.path = generatePath path ∧
      returnLoc.toList.map ReturnLocation.name =
        (if isReturn action then [returnLocationName retLocIndex] else []) ∧
      ∀ page ∈ loc.errorPages, LeadsTo params action retLocIndex page := by
  cases action with
  | none => simp [locationOfAction] at h
  | some a =>
    simp only [locationOfAction, bind_eq_bind, bind_some, generateLocation] at h
    split at h
    · rename_i redirect hredirect
      cases h
      refine ⟨rfl, by simp [isReturn, hredirect], fun page hpage => ?_⟩
      obtain rfl := List.mem_singleton.mp hpage
      exact .redirect a redirect rfl hredirect rfl
    · rename_i ret hredirect hret
      cases h
      have hreturn : isReturn (some a) = true := by simp [isReturn, hredirect, hret]
      refine ⟨rfl, by simp [hreturn, generateLocationForReturn], fun page hpage => ?_⟩
      obtain rfl := List.mem_singleton.mp hpage
      exact .ret hreturn rfl
    · rename_i hredirect hret
      simp only [generateLocationForProxying, bind_eq_bind, bind_eq_some_iff,
        Option.some.injEq] at h
      obtain ⟨loc', ⟨pages, hpages, rfl⟩, heq⟩ := h
      cases heq
      exact ⟨rfl, by simp [isReturn, hredirect, hret], fun page hpage => .page pages hpages hpage⟩

theorem actionParts_spec {action : Option Action} {internal : Bool}
    (h : actionParts params path action internal retLocIndex = some parts) : ∃ loc returnLoc,
      locationOfAction params path action internal retLocIndex = some (loc, returnLoc) ∧
        parts = { locations := [loc], returnLocations := returnLoc.toList } := by
  simp only [actionParts, bind_eq_bind, bind_eq_some_iff, Option.some.injEq] at h
  obtain ⟨⟨loc, returnLoc⟩, hloc, rfl⟩ := h
  exact ⟨loc, returnLoc, hloc, rfl⟩

/-- The locations of splits come with nothing but return locations. -/
theorem splitLocations_spec {splits : List Split}
    (h : splitLocations params scIndex retLocIndex splits = some parts) :
    parts = { locations := parts.locations, returnLocations := parts.returnLocations } := by
  refine foldlM_invariant (P := fun _ (p : RoutingParts) =>
    p = { locations := p.locations, returnLocations := p.returnLocations }) rfl ?_ h
  intro done e acc acc' hacc hstep
  simp only [splitStep, bind_eq_bind, bind_eq_some_iff, Option.some.injEq] at hstep
  obtain ⟨p, hp, rfl⟩ := hstep
  obtain ⟨loc, returnLoc, -, rfl⟩ := actionParts_spec hp
  rw [hacc]
  rfl

theorem generateSplits_spec {splits : List Split}
    (h : generateSplits params namer dynamicReload scIndex retLocIndex splits = some parts) :
    ∃ locations returnLocations,
      splitLocations params scIndex retLocIndex splits = some { locations, returnLocations } ∧
      parts = splitParts namer dynamicReload splits scIndex ++
        ({ locations, returnLocations } : RoutingParts) := by
  simp only [generateSplits, bind_eq_bind, bind_eq_some_iff, Option.some.injEq] at h
  obtain ⟨p, hp, rfl⟩ := h
  have hspec := splitLocations_spec hp
  rw [hspec] at hp ⊢
  exact ⟨p.locations, p.returnLocations, hp, rfl⟩

variable (h : partsAt params namer dynamicReload scIndex retLocIndex t = some parts)
include h

/-- A target takes the split clients its splits take. -/
theorem length_splitClients :
    parts.splitClients.length = splitClientsAmount dynamicReload t.splits := by
  unfold partsAt at h
  unfold splitClientsAmount
  by_cases hsplits : t.splits = []
  · rw [if_pos hsplits] at h ⊢
    obtain ⟨loc, returnLoc, -, rfl⟩ := actionParts_spec h
    rfl
  rw [if_neg hsplits] at h ⊢
  obtain ⟨locations, returnLocations, -, rfl⟩ := generateSplits_spec h
  unfold splitParts
  split
  · simp [generateSplitsForWeightChangesDynamicReload]
  · simp

/-- Where requests for the parts of a target enter them. -/
def entryOf (parts : RoutingParts) : Option String :=
  match parts.maps, parts.splitClients, parts.locations with
  | m :: _, _, _ => some m.variableName
  | [], splitClient :: _, _ => some splitClient.variableName
  | [], [], loc :: _ => some loc.path
  | [], [], [] => none

/-- The entry of a target is the location or the variable that the maps name. -/
theorem entryOf_partsAt : entryOf parts = some (if t.splits = [] then generatePath t.path
      else splitVariable namer dynamicReload t.splits scIndex) := by
  unfold partsAt at h
  by_cases hsplits : t.splits = []
  · rw [if_pos hsplits] at h ⊢
    obtain ⟨loc, returnLoc, hloc, rfl⟩ := actionParts_spec h
    simp [entryOf, (locationOfAction_spec hloc).1]
  rw [if_neg hsplits] at h ⊢
  obtain ⟨locations, returnLocations, -, rfl⟩ := generateSplits_spec h
  unfold splitParts splitVariable
  split <;> rfl

/-- The maps of a target are those of the weights of its splits. -/
theorem variableName_of_partsAt {m : Map} (hm : m ∈ parts.maps) :
    m.variableName = namer.getNameOfMapForSplitClientIndex scIndex := by
  unfold partsAt at h
  split at h
  · obtain ⟨loc, returnLoc, -, rfl⟩ := actionParts_spec h
    cases hm
  obtain ⟨locations, returnLocations, -, rfl⟩ := generateSplits_spec h
  unfold splitParts at hm
  split at hm
  · rw [maps_append, List.append_nil, List.mem_singleton] at hm
    rw [hm]
    rfl
  · cases hm

omit h

theorem runTargets_forall₂ {ts : List Target} {ps : List RoutingParts}
    (h : runTargets params namer dynamicReload scIndex retLocIndex ts = some ps) :
    List.Forall₂ (fun t p => ∃ scIndex retLocIndex,
      partsAt params namer dynamicReload scIndex retLocIndex t = some p) ts ps := by
  induction ts generalizing scIndex retLocIndex ps with
  | nil =>
    obtain rfl : ps = [] := by simpa [runTargets] using h.symm
    exact List.Forall₂.nil
  | cons t ts ih =>
    simp only [runTargets, bind_eq_bind, bind_eq_some_iff, Option.some.injEq] at h
    obtain ⟨p, hp, rest, hrest, rfl⟩ := h
    exact List.Forall₂.cons ⟨scIndex, retLocIndex, hp⟩ (ih hrest)

theorem exists_partsAt_of_mem {ts : List Target} {ps : List RoutingParts}
    (h : runTargets params namer dynamicReload scIndex retLocIndex ts = some ps)
    (hparts : parts ∈ ps) : ∃ t ∈ ts, ∃ scIndex retLocIndex,
      partsAt params namer dynamicReload scIndex retLocIndex t = some parts := by
  obtain ⟨i, hi⟩ := List.getElem?_of_mem hparts
  have hall := runTargets_forall₂ h
  obtain ⟨t, ht⟩ : ∃ t, ts[i]? = some t := by
    have hlt : i < ts.length := hall.length_eq ▸ (List.getElem?_eq_some_iff.mp hi).1
    exact ⟨ts[i], List.getElem?_eq_getElem hlt⟩
  have hzip : (t, parts) ∈ ts.zip ps :=
    List.mem_of_getElem? (List.getElem?_zip_eq_some.mpr ⟨ht, hi⟩)
  exact ⟨t, List.mem_of_getElem? ht, List.forall₂_zip hall hzip⟩

end

end IngressController.Configs
