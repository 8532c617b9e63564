import IngressController.Generator.Targets
import IngressController.Library.Offsets

/-! # Targets and their numbers

What targets generate, by the numbers of their split clients and return locations. Everything but
the settings of locations follows from the specs alone.
-/

namespace IngressController.Configs

open Version2 GoPanic Offsets RoutingParts

def Target.actions (t : Target) : List (Option Action) :=
  if t.splits = [] then [t.action] else t.splits.map Split.action

/-- The paths of the locations of a target whose split clients have a number. -/
def locationPaths (e : Nat × Target) : List String :=
  if e.2.splits = [] then [generatePath e.2.path]
  else (List.range e.2.splits.length).map (splitLocationPath e.1)

def staticParts (namer : VariableNamer) (dynamicReload : Bool) (e : Nat × Target) : RoutingParts :=
  if e.2.splits = [] then {} else splitParts namer dynamicReload e.2.splits e.1

/-- The locations that were generated: their paths, the names of the return locations and where
error pages lead. -/
structure HasLocations (params : LocationParams) (retLocIndex : Nat) (paths : List String)
    (actions : List (Option Action)) (parts : RoutingParts) : Prop where
  paths : parts.locations.map Location.path = paths
  returns : parts.returnLocations.map ReturnLocation.name =
    (List.range' retLocIndex (actions.countP isReturn)).map returnLocationName
  pages : ∀ loc ∈ parts.locations, ∀ page ∈ loc.errorPages, ∃ action ∈ actions, ∃ n,
    LeadsTo params action n page ∧
      (isReturn action = true → retLocIndex ≤ n ∧ n < retLocIndex + actions.countP isReturn)

section Target

variable {params : LocationParams} {namer : VariableNamer} {dynamicReload : Bool}
  {scIndex retLocIndex : Nat} {parts : RoutingParts} {t : Target}

theorem hasLocations_actionParts {path : String} {action : Option Action} {internal : Bool}
    (h : actionParts params path action internal retLocIndex = some parts) :
    HasLocations params retLocIndex [generatePath path] [action] parts := by
  obtain ⟨loc, returnLoc, hloc, rfl⟩ := actionParts_spec h
  obtain ⟨hpath, hreturns, hpages⟩ := locationOfAction_spec hloc
  refine ⟨by simp [hpath], ?_, ?_⟩
  · rw [hreturns]
    cases hreturn : isReturn action <;> simp [hreturn]
  · intro loc' hloc' page hpage
    obtain rfl := List.mem_singleton.mp hloc'
    refine ⟨action, List.mem_singleton_self _, retLocIndex, hpages page hpage, fun hreturn => ?_⟩
    simp [hreturn]

theorem HasLocations.append {paths paths' : List String} {actions actions' : List (Option Action)}
    {parts parts' : RoutingParts} (h : HasLocations params retLocIndex paths actions parts)
    (h' : HasLocations params (retLocIndex + actions.countP isReturn) paths' actions' parts') :
    HasLocations params retLocIndex (paths ++ paths') (actions ++ actions') (parts ++ parts') := by
  refine ⟨by simp [h.paths, h'.paths], ?_, ?_⟩
  · rw [returnLocations_append, List.map_append, h.returns, h'.returns,
      List.countP_append, ← List.map_append]
    congr 1
    exact List.range'_append_1
  intro loc hloc page hpage
  rw [List.countP_append]
  rcases List.mem_append.mp hloc with hloc | hloc
  · obtain ⟨action, hin, n, hleads, hn⟩ := h.pages loc hloc page hpage
    refine ⟨action, List.mem_append_left _ hin, n, hleads, fun hreturn => ?_⟩
    have hn := hn hreturn
    omega
  · obtain ⟨action, hin, n, hleads, hn⟩ := h'.pages loc hloc page hpage
    refine ⟨action, List.mem_append_right _ hin, n, hleads, fun hreturn => ?_⟩
    have hn := hn hreturn
    omega

theorem length_returnLocations {paths : List String} {actions : List (Option Action)}
    (h : HasLocations params retLocIndex paths actions parts) :
    parts.returnLocations.length = actions.countP isReturn := by
  have hlength := congrArg List.length h.returns
  simpa using hlength

theorem hasLocations_splitLocations {splits : List Split}
    (h : splitLocations params scIndex retLocIndex splits = some parts) :
    HasLocations params retLocIndex ((List.range splits.length).map (splitLocationPath scIndex))
      (splits.map Split.action) parts := by
  have hempty : HasLocations params retLocIndex [] [] {} := ⟨rfl, rfl, by simp⟩
  have hinv := foldlM_invariant (P := fun (done : List (Split × Nat)) (p : RoutingParts) =>
      HasLocations params retLocIndex
        (done.map fun e => splitLocationPath scIndex e.2) (done.map fun e => e.1.action) p)
    hempty (fun done e acc acc' hacc hstep => by
      simp only [splitStep, Option.bind_eq_bind, Option.bind_eq_some_iff, Option.some.injEq]
        at hstep
      obtain ⟨p, hp, rfl⟩ := hstep
      rw [length_returnLocations hacc] at hp
      have hslash : generatePath (splitLocationPath scIndex e.2) = splitLocationPath scIndex e.2 :=
        generatePath_of_slash (by simp [splitLocationPath])
      have hlast := hasLocations_actionParts hp
      rw [hslash] at hlast
      simpa using hacc.append hlast) h
  have hsnd : splits.zipIdx.map (fun e => splitLocationPath scIndex e.2) =
      (List.range splits.length).map (splitLocationPath scIndex) := by
    rw [List.range_eq_range', ← List.zipIdx_map_snd, List.map_map]
    rfl
  have hfst : splits.zipIdx.map (fun e => e.1.action) = splits.map Split.action := by
    conv_rhs => rw [← List.zipIdx_map_fst 0 splits, List.map_map]
    rfl
  rwa [hsnd, hfst] at hinv

theorem locations_splitParts (namer : VariableNamer) (dynamicReload : Bool) (splits : List Split)
    (scIndex : Nat) :
    (splitParts namer dynamicReload splits scIndex).locations = [] ∧
      (splitParts namer dynamicReload splits scIndex).returnLocations = [] := by
  unfold splitParts
  split <;> exact ⟨rfl, rfl⟩

/-- One target: its locations, and what does not depend on their settings. -/
theorem partsAt_spec (h : partsAt params namer dynamicReload scIndex retLocIndex t = some parts) :
    HasLocations params retLocIndex (locationPaths (scIndex, t)) t.actions parts ∧
      { parts with locations := [], returnLocations := [] } =
        staticParts namer dynamicReload (scIndex, t) := by
  unfold partsAt at h
  unfold locationPaths Target.actions staticParts
  by_cases hsplits : t.splits = []
  · rw [if_pos hsplits] at h
    simp only [if_pos hsplits]
    refine ⟨hasLocations_actionParts h, ?_⟩
    obtain ⟨loc, returnLoc, -, rfl⟩ := actionParts_spec h
    rfl
  · rw [if_neg hsplits] at h
    simp only [if_neg hsplits]
    obtain ⟨locations, returnLocations, hlocations, rfl⟩ := generateSplits_spec h
    have hstatic := locations_splitParts namer dynamicReload t.splits scIndex
    refine ⟨?_, ?_⟩
    · have hspec := hasLocations_splitLocations hlocations
      exact ⟨by simpa [hstatic.1] using hspec.paths, by simpa [hstatic.2] using hspec.returns,
        by simpa [hstatic.1] using hspec.pages⟩
    · simp [append_def, append, ← hstatic.1, ← hstatic.2]

theorem runTargets_spec {ts : List Target} {ps : List RoutingParts}
    (h : runTargets params namer dynamicReload scIndex retLocIndex ts = some ps) :
    HasLocations params retLocIndex
        ((place (fun t => splitClientsAmount dynamicReload t.splits) scIndex ts).flatMap
          locationPaths)
        (ts.flatMap Target.actions) (join ps) ∧
      { join ps with locations := [], returnLocations := [] } =
        join ((place (fun t => splitClientsAmount dynamicReload t.splits) scIndex ts).map
            (staticParts namer dynamicReload)) := by
  induction ts generalizing scIndex retLocIndex ps with
  | nil =>
    obtain rfl : ps = [] := by simpa [runTargets] using h.symm
    exact ⟨⟨rfl, rfl, by simp [join]⟩, rfl⟩
  | cons t ts ih =>
    simp only [runTargets, Option.bind_eq_bind, Option.bind_eq_some_iff, Option.some.injEq] at h
    obtain ⟨p, hp, rest, hrest, rfl⟩ := h
    obtain ⟨hlocations, hstatic⟩ := partsAt_spec hp
    rw [length_splitClients hp, length_returnLocations hlocations] at hrest
    obtain ⟨hlocations', hstatic'⟩ := ih hrest
    have hjoin : join (p :: rest) = p ++ join rest := by
      have hcons := append_join_cons {} p rest
      rwa [nil_append, nil_append] at hcons
    refine ⟨?_, ?_⟩
    · rw [hjoin]
      exact hlocations.append hlocations'
    rw [place_cons, List.map_cons, ← hstatic]
    have hcons := append_join_cons {} { p with
      locations := [], returnLocations := [] }
      ((place (fun t => splitClientsAmount dynamicReload t.splits)
        (scIndex + splitClientsAmount dynamicReload t.splits) ts).map
          (staticParts namer dynamicReload))
    rw [nil_append, nil_append] at hcons
    rw [hjoin, hcons, ← hstatic']
    rfl

end Target

def matchesCount (r : Route) : Nat := if r.routeMatches = [] then 0 else 1

def splitsOf (r : Route) : List (List Split) := r.routeMatches.map Match.splits ++ [r.splits]

variable (namer : VariableNamer) (dynamicReload : Bool)

def splitClientsCount (r : Route) : Nat :=
  total (splitClientsAmount dynamicReload) (splitsOf r)

def routeActions (r : Route) : List (Option Action) := (targetsOf 0 r).flatMap Target.actions

/-- Routes with the numbers of their split clients and the numbers among those with matches. -/
def numberedRoutes (rs : List Route) : List (Nat × Nat × Route) :=
  place (fun e => splitClientsCount dynamicReload e.2) 0 (place matchesCount 0 rs)

variable (e : Nat × Nat × Route)

/-- The targets of a numbered route with the numbers of their split clients. -/
def placedTargets : List (Nat × Target) :=
  place (fun t => splitClientsAmount dynamicReload t.splits) e.1 (targetsOf e.2.1 e.2.2)

def routePaths : List String :=
  (placedTargets dynamicReload e).flatMap locationPaths

def routeParts : RoutingParts :=
  let parts := join
    ((placedTargets dynamicReload e).map (staticParts namer dynamicReload))
  { parts with maps := matchMaps namer dynamicReload e.2.1 e.1 e.2.2 ++ parts.maps }

variable (index : Nat) (r : Route)

theorem actions_targetsOf : (targetsOf index r).flatMap Target.actions = routeActions r := by
  simp only [routeActions, targetsOf, List.flatMap_append, List.flatMap_map]
  rfl

theorem splits_targetsOf : (targetsOf index r).map Target.splits = splitsOf r := by
  have hmatches : (r.routeMatches.zipIdx.map (matchTargetOf index)).map Target.splits =
      r.routeMatches.map Match.splits := by
    conv_rhs => rw [← List.zipIdx_map_fst 0 r.routeMatches, List.map_map]
    rw [List.map_map]
    rfl
  rw [targetsOf, List.map_append, hmatches]
  rfl

theorem total_targetsOf :
    total (fun t => splitClientsAmount dynamicReload t.splits) (targetsOf index r) =
      splitClientsCount dynamicReload r := by
  rw [splitClientsCount, ← splits_targetsOf index, total, total, List.map_map]
  rfl

theorem length_staticParts (e : Nat × Target) :
    (staticParts namer dynamicReload e).splitClients.length =
      splitClientsAmount dynamicReload e.2.splits := by
  unfold staticParts splitClientsAmount
  split
  · rfl
  · unfold splitParts
    split
    · simp [generateSplitsForWeightChangesDynamicReload]
    · rfl

theorem length_routeParts : (routeParts namer dynamicReload e).splitClients.length =
      splitClientsCount dynamicReload e.2.2 := by
  have hlength : (routeParts namer dynamicReload e).splitClients.length =
      total (fun e => splitClientsAmount dynamicReload e.2.splits)
        (placedTargets dynamicReload e) := by
    simp only [routeParts, join, List.flatMap_map, List.length_flatMap, length_staticParts, total]
  rw [hlength, placedTargets,
    total_place _ (fun t : Target => splitClientsAmount dynamicReload t.splits), total_targetsOf]

variable (rs : List Route)

theorem numberedRoutes_concat (r : Route) :
    numberedRoutes dynamicReload (rs ++ [r]) = numberedRoutes dynamicReload rs ++
      [(total (splitClientsCount dynamicReload) rs, total matchesCount rs, r)] := by
  unfold numberedRoutes
  rw [place_concat, place_concat, Nat.zero_add, Nat.zero_add,
    total_place _ (splitClientsCount dynamicReload)]

@[simp] theorem route_numberedRoutes : (numberedRoutes dynamicReload rs).map (·.2.2) = rs := by
  have hcomp : (fun e : Nat × Nat × Route => e.2.2) = Prod.snd ∘ Prod.snd := rfl
  rw [numberedRoutes, hcomp, ← List.map_map, map_snd_place, map_snd_place]

@[simp] theorem length_numberedRoutes : (numberedRoutes dynamicReload rs).length = rs.length := by
  simp [numberedRoutes]

/-- What a route generates, by its numbers. -/
theorem generateRouting_spec {params : LocationParams} {namer : VariableNamer}
    {dynamicReload : Bool} {index : RoutingIndex} {r : Route} {routing : RoutingCfg}
    (h : generateRouting params namer dynamicReload index r = some routing) :
    HasLocations params index.returnLocations
        (routePaths dynamicReload (index.splitClients, index.matchesRoutes, r)) (routeActions r)
        routing.toRoutingParts ∧
      { routing.toRoutingParts with locations := [], returnLocations := [] } =
        routeParts namer dynamicReload (index.splitClients, index.matchesRoutes, r) ∧
      routing.internalRedirectLocation =
        redirectOf namer dynamicReload index.matchesRoutes index.splitClients r := by
  rw [generateRouting_eq, Option.map_eq_some_iff] at h
  obtain ⟨ps, hps, rfl⟩ := h
  obtain ⟨hlocations, hstatic⟩ := runTargets_spec hps
  rw [actions_targetsOf] at hlocations
  refine ⟨⟨hlocations.paths, hlocations.returns, hlocations.pages⟩, ?_, rfl⟩
  unfold routeParts placedTargets
  rw [← hstatic]

end IngressController.Configs
