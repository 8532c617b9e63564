import Mathlib.Data.List.Perm.Basic
import Mathlib.Data.List.Sigma
import IngressController.Generator.PlacedTargets

/-! # Names routes define and refer to

The variables and locations of numbered routes, as data. No two routes define the same name, and
what a route refers to is its own.
-/

namespace IngressController.Configs

open GoString Version2 Offsets InternalLocation InternalVariable InternalRedirectLocation List
open Parameter (result)

variable (namer : VariableNamer) (dynamicReload : Bool)

def targetVariables (e : Nat × Target) : List InternalVariable :=
  if e.2.splits = [] then []
  else if isDynamicSplit dynamicReload e.2.splits then
    (range splitClientAmountWhenWeightChangesDynamicReload).map
        (fun w => .splitClientsForWeights e.1 w (100 - w)) ++
      [.splitClientsMap e.1, .keyval e.1]
  else [.splitClients e.1]

def matchVariables (index : Nat) (r : Route) : List InternalVariable :=
  if r.routeMatches = [] then []
  else (r.routeMatches.zipIdx.flatMap fun (m, i) =>
      (range m.conditions.length).map (.condition index i)) ++ [.matchesMap index]

def routeVariables (e : Nat × Nat × Route) : List InternalVariable :=
  matchVariables e.2.1 e.2.2 ++
    (placedTargets dynamicReload e).flatMap (targetVariables dynamicReload)

def definedBy (parts : RoutingParts) : List String :=
  parts.splitClients.map SplitClient.variableName ++
    (parts.maps.map Map.variableName ++ parts.keyVals.map KeyVal.variableName)

theorem definedBy_join (ps : List RoutingParts) :
    (definedBy (RoutingParts.join ps)).Perm (ps.flatMap definedBy) := by
  have hmaps := flatMap_append_perm ps (fun p => p.maps.map Map.variableName)
    (fun p => p.keyVals.map KeyVal.variableName)
  have hall := flatMap_append_perm ps (fun p => p.splitClients.map SplitClient.variableName)
    (fun p => p.maps.map Map.variableName ++ p.keyVals.map KeyVal.variableName)
  simp only [definedBy, RoutingParts.join, map_flatMap]
  exact (hmaps.append_left _).trans hall

theorem definedBy_staticParts (e : Nat × Target) :
    definedBy (staticParts namer dynamicReload e) =
      (targetVariables dynamicReload e).map (text namer) := by
  unfold staticParts targetVariables splitParts
  by_cases hsplits : e.2.splits = []
  · rw [if_pos hsplits, if_pos hsplits]
    rfl
  · rw [if_neg hsplits, if_neg hsplits]
    split
    · simp [definedBy, generateSplitsForWeightChangesDynamicReload, InternalVariable.text,
        splitClientForWeights]
    · rfl

theorem variableName_matchMaps (index scIndex : Nat) (r : Route) :
    (matchMaps namer dynamicReload index scIndex r).map Map.variableName =
      (matchVariables index r).map (text namer) := by
  unfold matchMaps matchVariables
  by_cases hmatches : r.routeMatches = []
  · rw [if_neg (not_not.mpr hmatches), if_pos hmatches]
    rfl
  rw [if_pos hmatches, if_neg hmatches, map_append, map_append, conditionMaps,
    map_flatMap, map_flatMap]
  congr 1
  congr 1
  funext e
  rw [map_map, map_map, range_eq_range', ← zipIdx_map_snd 0 e.1.conditions, map_map]
  rfl

theorem definedBy_routeParts (e : Nat × Nat × Route) :
    (definedBy (routeParts namer dynamicReload e)).Perm
      ((routeVariables dynamicReload e).map (text namer)) := by
  have hjoin := definedBy_join ((placedTargets dynamicReload e).map
    (staticParts namer dynamicReload))
  simp only [flatMap_map, definedBy_staticParts] at hjoin
  rw [routeVariables, map_append, map_flatMap]
  refine List.Perm.trans ?_ (hjoin.append_left _)
  simp only [definedBy, routeParts, map_append, variableName_matchMaps]
  rw [append_assoc]
  exact perm_append_comm_assoc _ _ _

def allTargets (rs : List Route) : List Target :=
  (place matchesCount 0 rs).flatMap fun e => targetsOf e.1 e.2

theorem placedTargets_numberedRoutes (rs : List Route) :
    (numberedRoutes dynamicReload rs).flatMap (placedTargets dynamicReload) =
      place (fun t => splitClientsAmount dynamicReload t.splits) 0 (allTargets rs) := by
  have hsize : (fun e : Nat × Route => splitClientsCount dynamicReload e.2) =
      fun e => total (fun t => splitClientsAmount dynamicReload t.splits) (targetsOf e.1 e.2) :=
    funext fun e => (total_targetsOf dynamicReload e.1 e.2).symm
  rw [numberedRoutes, hsize, allTargets]
  exact flatMap_place _ (fun e : Nat × Route => targetsOf e.1 e.2) 0 _

def InternalVariable.splitNumber : InternalVariable → Option Nat
  | splitClients i | splitClientsForWeights i _ _ | splitClientsMap i | keyval i => some i
  | condition _ _ _ | matchesMap _ => none

def InternalVariable.matchesNumber : InternalVariable → Option Nat
  | condition index _ _ | matchesMap index => some index
  | _ => none

variable {index : Nat} {r : Route}

section

variable {dynamicReload} {v : InternalVariable}

theorem splitNumber_of_mem {e : Nat × Target} (h : v ∈ targetVariables dynamicReload e) :
    v.splitNumber = some e.1 ∧ 0 < splitClientsAmount dynamicReload e.2.splits := by
  unfold targetVariables at h
  unfold splitClientsAmount
  split_ifs at h with hsplits hdynamic
  · cases h
  · rw [if_neg hsplits, if_pos hdynamic]
    refine ⟨?_, by decide⟩
    simp only [mem_append, mem_map, mem_cons, not_mem_nil, or_false] at h
    rcases h with ⟨w, -, rfl⟩ | rfl | rfl <;> rfl
  · rw [if_neg hsplits, if_neg hdynamic]
    obtain rfl := mem_singleton.mp h
    exact ⟨rfl, Nat.one_pos⟩

theorem matchesNumber_of_mem (h : v ∈ matchVariables index r) :
    v.matchesNumber = some index ∧ 0 < matchesCount r := by
  unfold matchVariables at h
  unfold matchesCount
  split_ifs at h with hmatches
  · cases h
  · rw [if_neg hmatches]
    refine ⟨?_, Nat.one_pos⟩
    simp only [mem_append, mem_flatMap, mem_map, mem_singleton] at h
    rcases h with ⟨_, _, _, _, rfl⟩ | rfl <;> rfl

theorem nodup_targetVariables (dynamicReload : Bool) (e : Nat × Target) :
    (targetVariables dynamicReload e).Nodup := by
  unfold targetVariables
  split_ifs
  · exact nodup_nil
  · rw [nodup_append]
    exact ⟨List.Nodup.map (fun w w' h => by cases h; rfl) nodup_range, by simp, by simp⟩
  · exact nodup_singleton _

theorem nodup_matchVariables (index : Nat) (r : Route) : (matchVariables index r).Nodup := by
  unfold matchVariables
  split_ifs
  · exact nodup_nil
  rw [nodup_append]
  have hsnd := nodup_zipIdx_map_snd r.routeMatches
  refine ⟨?_, nodup_singleton _, ?_⟩
  · rw [nodup_flatMap]
    refine ⟨fun e _ => List.Nodup.map (fun j j' h => by cases h; rfl) nodup_range, ?_⟩
    refine (pairwise_map.mp hsnd).imp fun hne v hv hv' => ?_
    obtain ⟨j, -, rfl⟩ := mem_map.mp hv
    obtain ⟨j', -, heq⟩ := mem_map.mp hv'
    rw [condition.injEq] at heq
    exact hne heq.2.1.symm
  · grind

theorem nodup_routeVariables (dynamicReload : Bool) (rs : List Route) :
    ((numberedRoutes dynamicReload rs).flatMap (routeVariables dynamicReload)).Nodup := by
  have hperm := flatMap_append_perm (numberedRoutes dynamicReload rs)
    (fun e => matchVariables e.2.1 e.2.2)
    (fun e => (placedTargets dynamicReload e).flatMap (targetVariables dynamicReload))
  refine (List.Perm.nodup_iff hperm).mp ?_
  have hmatches : (numberedRoutes dynamicReload rs).flatMap (fun e => matchVariables e.2.1 e.2.2) =
      (place matchesCount 0 rs).flatMap fun e => matchVariables e.1 e.2 := by
    conv_rhs => rw [← map_snd_place (fun e => splitClientsCount dynamicReload e.2) 0
      (place matchesCount 0 rs), flatMap_map]
    rfl
  rw [hmatches, ← flatMap_assoc, placedTargets_numberedRoutes, nodup_append]
  refine ⟨?_, ?_, ?_⟩
  · refine nodup_flatMap_place (fun e => nodup_matchVariables e.1 e.2)
      (fun hv => (matchesNumber_of_mem hv).2) fun hv hv' => ?_
    exact Option.some.inj ((matchesNumber_of_mem hv).1.symm.trans (matchesNumber_of_mem hv').1)
  · refine nodup_flatMap_place (nodup_targetVariables dynamicReload)
      (fun hv => (splitNumber_of_mem hv).2) fun hv hv' => ?_
    exact Option.some.inj ((splitNumber_of_mem hv).1.symm.trans (splitNumber_of_mem hv').1)
  · intro v hv v' hv' heq
    subst heq
    obtain ⟨e, -, hv⟩ := mem_flatMap.mp hv
    obtain ⟨e', -, hv'⟩ := mem_flatMap.mp hv'
    have hnumber := (matchesNumber_of_mem hv).1
    have hsplit := (splitNumber_of_mem hv').1
    cases v <;> cases hnumber <;> cases hsplit

end

def targetLocations (e : Nat × Target) : List InternalLocation :=
  if e.2.splits = [] then e.2.location.toList
  else (range e.2.splits.length).map (.split e.1)

def routeLocations (e : Nat × Nat × Route) : List InternalLocation :=
  (placedTargets dynamicReload e).flatMap targetLocations

/-- The number a location has, and whether it belongs to splits. -/
def InternalLocation.number : InternalLocation → Option (Bool × Nat)
  | split scIndex _ => some (true, scIndex)
  | routeMatch index _ | matchDefault index => some (false, index)
  | _ => none

theorem head_text {l : InternalLocation} (h : l.number.isSome) :
    l.text.toList.head? = some '/' := by
  cases l with
  | split scIndex i => simp [InternalLocation.text, splitLocationPath]
  | routeMatch index i => simp [InternalLocation.text, matchLocationPath]
  | matchDefault index => simp [InternalLocation.text, defaultLocationPath]
  | ret _ | errorPage _ _ => cases h

/-- A target has the locations it defines, or the one of the route. -/
theorem locationPaths_eq (e : Nat × Target) (h : ∀ l ∈ e.2.location, l.number.isSome) :
    locationPaths e = (targetLocations e).map InternalLocation.text ++
      if e.2.splits = [] ∧ e.2.location = none then [generatePath e.2.routePath] else [] := by
  unfold locationPaths targetLocations
  by_cases hsplits : e.2.splits = []
  · rw [if_pos hsplits, if_pos hsplits]
    cases hlocation : e.2.location with
    | none => simp [hsplits, Target.path, hlocation]
    | some l =>
      have hl := generatePath_of_slash (head_text (h l hlocation))
      simp [hsplits, Target.path, hlocation, hl]
  · rw [if_neg hsplits, if_neg hsplits]
    simp [hsplits, InternalLocation.text]

variable {l : InternalLocation}

theorem location_of_mem_targetsOf {t : Target} (h : t ∈ targetsOf index r)
    (hmatches : r.routeMatches ≠ []) : ∃ l, t.location = some l := by
  rcases mem_append.mp h with h | h
  · obtain ⟨e, he, rfl⟩ := mem_map.mp h
    exact ⟨_, rfl⟩
  · obtain rfl := mem_singleton.mp h
    exact ⟨.matchDefault index, by simp [defaultTargetOf, hmatches]⟩

/-- Only targets of routes with matches have a location, with the number of the route. -/
theorem number_of_location {t : Target} (h : t ∈ targetsOf index r) (hl : t.location = some l) :
    r.routeMatches ≠ [] ∧ l.number = some (false, index) := by
  rcases mem_append.mp h with h | h
  · obtain ⟨e, he, rfl⟩ := mem_map.mp h
    cases hl
    exact ⟨ne_nil_of_mem (fst_mem_of_mem_zipIdx he), rfl⟩
  · obtain rfl := mem_singleton.mp h
    simp only [defaultTargetOf] at hl
    split_ifs at hl with hmatches
    cases hl
    exact ⟨hmatches, rfl⟩

theorem routePaths_perm (e : Nat × Nat × Route) :
    (routePaths dynamicReload e ++ (redirectOf namer dynamicReload e.2.1 e.1 e.2.2).toList.map
          path).Perm
      (generatePath e.2.2.path :: (routeLocations dynamicReload e).map InternalLocation.text) := by
  obtain ⟨scIndex, index, r⟩ := e
  by_cases hmatches : r.routeMatches = []
  · have htargets : targetsOf index r = [defaultTargetOf index r] := by simp [targetsOf, hmatches]
    have hlocation : (defaultTargetOf index r).location = none := by
      simp [defaultTargetOf, hmatches]
    have heq := locationPaths_eq (scIndex, defaultTargetOf index r) (by simp [hlocation])
    simp only [routePaths, routeLocations, placedTargets, htargets, place_cons, place_nil,
      flatMap_cons, flatMap_nil, append_nil, heq, redirectOf, hmatches, hlocation]
    have hsplits : (defaultTargetOf index r).splits = r.splits := rfl
    have hpath : (defaultTargetOf index r).routePath = r.path := rfl
    rw [hsplits, hpath]
    by_cases hnil : r.splits = [] <;> simp [hnil, perm_append_singleton]
  · have hall : ∀ p ∈ placedTargets dynamicReload (scIndex, index, r),
        locationPaths p = (targetLocations p).map InternalLocation.text := by
      intro p hp
      have ht := mem_of_mem_place hp
      obtain ⟨l, hl⟩ := location_of_mem_targetsOf ht hmatches
      have heq := locationPaths_eq p (by simp [hl, (number_of_location ht hl).2])
      simpa [hl] using heq
    have hflat : routePaths dynamicReload (scIndex, index, r) =
        (routeLocations dynamicReload (scIndex, index, r)).map InternalLocation.text := by
      rw [routePaths, routeLocations, map_flatMap]
      exact flatMap_congr hall
    rw [hflat, redirectOf, if_pos hmatches]
    exact perm_append_singleton _ _

theorem routePaths_flatMap_perm (es : List (Nat × Nat × Route)) :
    (es.flatMap (routePaths dynamicReload) ++ es.flatMap fun e =>
        (redirectOf namer dynamicReload e.2.1 e.1 e.2.2).toList.map path).Perm
      (es.map (fun e => generatePath e.2.2.path) ++
        (es.flatMap (routeLocations dynamicReload)).map InternalLocation.text) := by
  have hfirst := flatMap_append_perm es (routePaths dynamicReload) fun e =>
    (redirectOf namer dynamicReload e.2.1 e.1 e.2.2).toList.map path
  have hlast := flatMap_append_perm es (fun e => [generatePath e.2.2.path]) fun e =>
    (routeLocations dynamicReload e).map text
  rw [map_eq_flatMap, map_flatMap]
  refine hfirst.trans (List.Perm.trans ?_ hlast.symm)
  exact List.Perm.flatMap_left _ fun e _ => routePaths_perm namer dynamicReload e

def plainLocations (t : Target) : List InternalLocation :=
  if t.splits = [] then t.location.toList else []

variable (e : Nat × Target)

def splitLocationsOf : List InternalLocation :=
  (range e.2.splits.length).map (.split e.1)

theorem targetLocations_eq : targetLocations e = plainLocations e.2 ++ splitLocationsOf e := by
  unfold targetLocations plainLocations splitLocationsOf
  by_cases hsplits : e.2.splits = [] <;> simp [hsplits]

theorem location_of_mem_plainLocations {t : Target}
    (h : l ∈ plainLocations t) : t.location = some l := by
  unfold plainLocations at h
  split at h
  · exact Option.mem_toList.mp h
  · cases h

theorem number_of_mem_plainLocations (h : l ∈ (targetsOf index r).flatMap plainLocations) :
    l.number = some (false, index) ∧ 0 < matchesCount r := by
  obtain ⟨t, ht, hl⟩ := mem_flatMap.mp h
  obtain ⟨hmatches, hnumber⟩ := number_of_location ht (location_of_mem_plainLocations hl)
  exact ⟨hnumber, by simp [matchesCount, hmatches]⟩

theorem nodup_plainLocations (index : Nat) (r : Route) :
    ((targetsOf index r).flatMap plainLocations).Nodup := by
  have hpairwise : (targetsOf index r).Pairwise fun t t' => ∀ l ∈ t.location, l ∉ t'.location := by
    rw [targetsOf, pairwise_append]
    refine ⟨?_, pairwise_singleton _ _, ?_⟩
    · have hsnd := nodup_zipIdx_map_snd r.routeMatches
      rw [pairwise_map]
      refine (pairwise_map.mp hsnd).imp fun hne l hl hl' => ?_
      simp only [matchTargetOf, Option.mem_some_iff] at hl hl'
      subst hl
      rw [routeMatch.injEq] at hl'
      exact hne hl'.2.symm
    · grind [matchTargetOf, defaultTargetOf]
  rw [nodup_flatMap]
  refine ⟨fun t _ => ?_, hpairwise.imp fun h l hl hl' => ?_⟩
  · unfold plainLocations
    split
    · cases t.location <;> simp
    · exact nodup_nil
  · exact h l (location_of_mem_plainLocations hl) (location_of_mem_plainLocations hl')

theorem nodup_routeLocations (rs : List Route) :
    ((numberedRoutes dynamicReload rs).flatMap (routeLocations dynamicReload)).Nodup := by
  have hflat : (numberedRoutes dynamicReload rs).flatMap (routeLocations dynamicReload) =
      (place (fun t => splitClientsAmount dynamicReload t.splits) 0 (allTargets rs)).flatMap
        targetLocations := by
    rw [← placedTargets_numberedRoutes, flatMap_assoc]
    rfl
  have hplain : (place (fun t => splitClientsAmount dynamicReload t.splits) 0
        (allTargets rs)).flatMap (fun e => plainLocations e.2) =
      (place matchesCount 0 rs).flatMap fun e => (targetsOf e.1 e.2).flatMap plainLocations := by
    rw [← flatMap_assoc]
    conv_rhs => rw [← allTargets, ← map_snd_place (fun t : Target =>
      splitClientsAmount dynamicReload t.splits) 0 (allTargets rs), flatMap_map]
  rw [hflat]
  have hperm := flatMap_append_perm
    (place (fun t => splitClientsAmount dynamicReload t.splits) 0 (allTargets rs))
    (fun e => plainLocations e.2) splitLocationsOf
  simp only [← targetLocations_eq] at hperm
  refine (List.Perm.nodup_iff hperm).mp ?_
  rw [hplain, nodup_append]
  refine ⟨?_, ?_, ?_⟩
  · refine nodup_flatMap_place (fun e => nodup_plainLocations e.1 e.2)
      (fun hl => (number_of_mem_plainLocations hl).2) fun hl hl' => ?_
    have hsame := (number_of_mem_plainLocations hl).1.symm.trans
      (number_of_mem_plainLocations hl').1
    simpa using hsame
  · refine nodup_flatMap_place (fun e => ?_) (fun {e} _ hl => ?_) fun hl hl' => ?_
    · refine List.Nodup.map (fun i i' h => ?_) nodup_range
      cases h
      rfl
    · obtain ⟨i, hi, -⟩ := mem_map.mp hl
      have hne : e.2.splits ≠ [] := length_pos_iff.mp (Nat.zero_lt_of_lt (mem_range.mp hi))
      rw [splitClientsAmount, if_neg hne]
      split <;> decide
    · obtain ⟨i, -, rfl⟩ := mem_map.mp hl
      obtain ⟨i', -, heq⟩ := mem_map.mp hl'
      rw [split.injEq] at heq
      exact heq.1.symm
  · intro l hl l' hl' heq
    subst heq
    obtain ⟨e, -, hl⟩ := mem_flatMap.mp hl
    obtain ⟨e', -, hl'⟩ := mem_flatMap.mp hl'
    obtain ⟨i, -, rfl⟩ := mem_map.mp hl'
    have hnumber := (number_of_mem_plainLocations hl).1
    cases hnumber

/-- Where the maps send requests for a target. -/
def targetEntry : String :=
  if e.2.splits = [] then e.2.path else splitVariable namer dynamicReload e.2.splits e.1

/-- The internal locations maps or split clients name for a target. A split without weight is not
named, unless weights may change. -/
def targetReferences : List InternalLocation :=
  if e.2.splits = [] then e.2.location.toList
  else if isDynamicSplit dynamicReload e.2.splits then [.split e.1 0, .split e.1 1]
  else (e.2.splits.zipIdx.filter fun s => s.1.weight ≠ 0).map fun s => .split e.1 s.2

def routeReferences (e : Nat × Nat × Route) : List InternalLocation :=
  (placedTargets dynamicReload e).flatMap (targetReferences dynamicReload)

def resultsOf (parts : RoutingParts) : List String :=
  parts.maps.flatMap fun m => m.parameters.map result

def valuesOf (parts : RoutingParts) : List String :=
  parts.splitClients.flatMap fun sc => sc.distributions.map Distribution.value

theorem targetReferences_subset {dynamicReload : Bool} {e : Nat × Target}
    (h : l ∈ targetReferences dynamicReload e) : l ∈ targetLocations e := by
  unfold targetReferences at h
  unfold targetLocations
  split_ifs at h ⊢ with hsplits hdynamic
  · exact h
  · have hlength : e.2.splits.length = 2 := by
      simpa [isDynamicSplit] using (Bool.and_eq_true_iff.mp hdynamic).2
    rw [hlength]
    simpa [range_succ] using h
  · obtain ⟨s, hs, rfl⟩ := mem_map.mp h
    have hlt := snd_lt_of_mem_zipIdx (mem_filter.mp hs).1
    rw [Nat.add_zero] at hlt
    exact mem_map.mpr ⟨s.2, mem_range.mpr hlt, rfl⟩

section

theorem mainParameters_results (index scIndex i : Nat) (ms : List Match) :
    (mainParameters namer dynamicReload index scIndex i ms).1.map result =
        (place (fun t => splitClientsAmount dynamicReload t.splits) scIndex
          ((ms.zipIdx i).map (matchTargetOf index))).map (targetEntry namer dynamicReload) ∧
      (mainParameters namer dynamicReload index scIndex i ms).2 = scIndex +
        total (fun t => splitClientsAmount dynamicReload t.splits)
          ((ms.zipIdx i).map (matchTargetOf index)) := by
  induction ms generalizing scIndex i with
  | nil => exact ⟨rfl, rfl⟩
  | cons m ms ih =>
    obtain ⟨hresults, hnext⟩ :=
      ih (scIndex + splitClientsAmount dynamicReload m.splits) (i + 1)
    simp only [mainParameters, zipIdx_cons, map_cons, place_cons, total_cons]
    rw [hresults, hnext, Nat.add_assoc]
    exact ⟨rfl, rfl⟩

theorem mainMap_results (index scIndex : Nat) (r : Route) (hmatches : r.routeMatches ≠ []) :
    (mainMap namer dynamicReload index scIndex r).parameters.map result =
      (placedTargets dynamicReload (scIndex, index, r)).map (targetEntry namer dynamicReload) := by
  obtain ⟨hresults, hnext⟩ :=
    mainParameters_results namer dynamicReload index scIndex 0 r.routeMatches
  have hpath := (defaultTargetOf_of_matches index hmatches).1
  simp only [mainMap, placedTargets, targetsOf, map_append, map_cons, map_nil,
    hresults, hnext, place_concat]
  simp only [targetEntry, hpath, defaultTarget]
  rfl

theorem splitVariable_eq (splits : List Split) (scIndex : Nat) :
    ∃ v : InternalVariable, splitVariable namer dynamicReload splits scIndex = v.text namer ∧
      ∀ t : Target, t.splits = splits → splits ≠ [] →
        v ∈ targetVariables dynamicReload (scIndex, t) := by
  unfold splitVariable targetVariables
  split
  · rename_i hdynamic
    refine ⟨.splitClientsMap scIndex, rfl, fun t ht hne => ?_⟩
    subst ht
    rw [if_neg hne, if_pos hdynamic]
    simp
  · rename_i hdynamic
    refine ⟨.splitClients scIndex, rfl, fun t ht hne => ?_⟩
    subst ht
    rw [if_neg hne, if_neg hdynamic]
    simp

variable {namer dynamicReload} {x : String}

theorem mem_values_distribution {scIndex i : Nat} {weight : Int} :
    x ∈ (distribution scIndex i weight).map Distribution.value ↔
      weight ≠ 0 ∧ x = (split scIndex i).text := by
  unfold distribution
  split <;> simp_all [InternalLocation.text]

theorem mem_valuesOf_staticParts {e : Nat × Target} :
    x ∈ valuesOf (staticParts namer dynamicReload e) ↔
      e.2.splits ≠ [] ∧ ∃ l ∈ targetReferences dynamicReload e, x = l.text := by
  unfold staticParts targetReferences
  by_cases hsplits : e.2.splits = []
  · simp [hsplits, valuesOf]
  rw [if_neg hsplits, if_neg hsplits, splitParts]
  split
  · have hweights : x ∈ valuesOf { splitClients := (generateSplitsForWeightChangesDynamicReload
        namer e.2.splits e.1).1 } ↔
        ∃ w < splitClientAmountWhenWeightChangesDynamicReload,
          (w ≠ 0 ∧ x = (split e.1 0).text) ∨
            (100 - w ≠ 0 ∧ x = (split e.1 1).text) := by
      simp only [valuesOf, generateSplitsForWeightChangesDynamicReload, flatMap_map,
        mem_flatMap, mem_range, splitClientForWeights, map_append,
        mem_append, mem_values_distribution, ne_eq, Int.natCast_eq_zero]
    refine hweights.trans ?_
    simp only [ne_eq, hsplits, not_false_eq_true, true_and, mem_cons, not_mem_nil,
      or_false, exists_eq_or_imp, exists_eq_left]
    constructor
    · rintro ⟨w, -, ⟨-, rfl⟩ | ⟨-, rfl⟩⟩
      · exact .inl rfl
      · exact .inr rfl
    · rintro (rfl | rfl)
      · exact ⟨1, by decide, .inl ⟨by decide, rfl⟩⟩
      · exact ⟨0, by decide, .inr ⟨by decide, rfl⟩⟩
  · simp only [valuesOf, distributions, flatMap_cons, flatMap_nil, append_nil,
      map_flatMap, mem_flatMap, mem_values_distribution]
    simp only [ne_eq, hsplits, not_false_eq_true, true_and, mem_map, mem_filter, decide_eq_true_eq]
    constructor
    · rintro ⟨s, hs, hne, rfl⟩
      exact ⟨_, ⟨s, ⟨hs, hne⟩, rfl⟩, rfl⟩
    · rintro ⟨_, ⟨s, ⟨hs, hne⟩, rfl⟩, rfl⟩
      exact ⟨s, hs, hne, rfl⟩

variable {e : Nat × Nat × Route}

theorem mem_valuesOf_routeParts :
    x ∈ valuesOf (routeParts namer dynamicReload e) ↔
      ∃ p ∈ placedTargets dynamicReload e, p.2.splits ≠ [] ∧
        ∃ l ∈ targetReferences dynamicReload p, x = l.text := by
  have hflat : valuesOf (routeParts namer dynamicReload e) =
      (placedTargets dynamicReload e).flatMap fun p =>
        valuesOf (staticParts namer dynamicReload p) := by
    simp only [valuesOf, routeParts, RoutingParts.join, flatMap_map, flatMap_assoc]
  rw [hflat, mem_flatMap]
  simp only [mem_valuesOf_staticParts]

theorem mem_resultsOf_staticParts {e : Nat × Target}
    (hx : x ∈ resultsOf (staticParts namer dynamicReload e)) :
    ∃ v ∈ targetVariables dynamicReload e, x = v.text namer := by
  unfold staticParts at hx
  unfold targetVariables
  by_cases hsplits : e.2.splits = []
  · rw [if_pos hsplits] at hx
    cases hx
  rw [if_neg hsplits, splitParts] at hx
  rw [if_neg hsplits]
  split at hx
  · rename_i hdynamic
    rw [if_pos hdynamic]
    have hcases : ∃ w, w < splitClientAmountWhenWeightChangesDynamicReload ∧
        x = (splitClientsForWeights e.1 w (100 - w)).text namer := by
      simp only [resultsOf, generateSplitsForWeightChangesDynamicReload, flatMap_cons,
        flatMap_nil, append_nil, map_append, map_map, mem_append,
        mem_map, mem_range, map_cons, map_nil, mem_singleton,
        Function.comp_apply] at hx
      rcases hx with ⟨w, hw, rfl⟩ | rfl
      · exact ⟨w, hw, rfl⟩
      · split
        on_goal 1 => split
        · exact ⟨0, by decide, rfl⟩
        all_goals exact ⟨100, by decide, rfl⟩
    obtain ⟨w, hw, rfl⟩ := hcases
    refine ⟨_, mem_append_left _ (mem_map.mpr ⟨w, mem_range.mpr hw, rfl⟩), rfl⟩
  · cases hx

/-- The map of a condition leads to the next condition or to a digit. -/
theorem mem_results_conditionMaps
    (hx : x ∈ (conditionMaps namer index r.routeMatches).flatMap fun m => m.parameters.map result) :
    x = "0" ∨ x = "1" ∨ ∃ v ∈ matchVariables index r, x = v.text namer := by
  obtain ⟨cm, hcm, hresult⟩ := mem_flatMap.mp hx
  obtain ⟨i, m, j, c, hm, hc, rfl⟩ := mem_conditionMaps.mp hcm
  have hne : r.routeMatches ≠ [] := ne_nil_of_mem (mem_of_getElem? hm)
  have hsuccess : ∀ y, y = (if j + 1 < m.conditions.length then
      namer.getNameForVariableForMatchesRouteMap index i (j + 1) else "1") →
        y = "1" ∨ ∃ v ∈ matchVariables index r, y = v.text namer := by
    rintro y rfl
    split
    · rename_i hlt
      refine .inr ⟨.condition index i (j + 1), ?_, rfl⟩
      rw [matchVariables, if_neg hne]
      refine mem_append_left _ (mem_flatMap.mpr ⟨(m, i), ?_, ?_⟩)
      · exact mem_zipIdx_iff_getElem?.mpr hm
      · exact mem_map.mpr ⟨j + 1, mem_range.mpr hlt, rfl⟩
    · exact .inl rfl
  simp only [conditionMap, generateParametersForMatchesRouteMap, map_cons, map_nil,
    mem_cons, not_mem_nil, or_false] at hresult
  split at hresult
  · rcases hresult with rfl | hresult
    · exact .inl rfl
    · exact .inr (hsuccess x hresult)
  · rcases hresult with hresult | rfl
    · exact .inr (hsuccess x hresult)
    · exact .inl rfl

theorem mem_resultsOf_routeParts :
    x ∈ resultsOf (routeParts namer dynamicReload e) ↔ (e.2.2.routeMatches ≠ [] ∧
        ((x ∈ (conditionMaps namer e.2.1 e.2.2.routeMatches).flatMap fun m =>
            m.parameters.map result) ∨
          ∃ p ∈ placedTargets dynamicReload e, x = targetEntry namer dynamicReload p)) ∨
      ∃ p ∈ placedTargets dynamicReload e, x ∈ resultsOf (staticParts namer dynamicReload p) := by
  obtain ⟨scIndex, index, r⟩ := e
  have hflat : resultsOf (routeParts namer dynamicReload (scIndex, index, r)) =
      ((matchMaps namer dynamicReload index scIndex r).flatMap fun m =>
        m.parameters.map result) ++
      (placedTargets dynamicReload (scIndex, index, r)).flatMap fun p =>
        resultsOf (staticParts namer dynamicReload p) := by
    simp only [resultsOf, routeParts, RoutingParts.join, flatMap_map, flatMap_assoc, flatMap_append]
  rw [hflat, mem_append, mem_flatMap (b := x) (l := placedTargets _ _)]
  refine or_congr_left ?_
  unfold matchMaps
  by_cases hmatches : r.routeMatches = []
  · simp [hmatches]
  · rw [if_pos hmatches, flatMap_append, mem_append, flatMap_singleton,
      mainMap_results namer dynamicReload index scIndex r hmatches, mem_map]
    simp only [ne_eq, hmatches, not_false_eq_true, true_and, eq_comm]

/-! ## What a route refers to is its own -/

variable {p : Nat × Target}

theorem mem_routeVariables_of_target (hp : p ∈ placedTargets dynamicReload e) {v : InternalVariable}
    (hv : v ∈ targetVariables dynamicReload p) : v ∈ routeVariables dynamicReload e :=
  mem_append_right _ (mem_flatMap.mpr ⟨p, hp, hv⟩)

theorem not_slash_text {v : InternalVariable} : hasPrefix (v.text namer) "/" = false := by
  rw [hasPrefix, InternalVariable.toList_text]
  rfl

theorem not_dollar_of_slash (h : hasPrefix x "/" = true) :
    hasPrefix x "$" = false := by
  cases hx : x.toList with
  | nil => simp [hasPrefix, hx]
  | cons c cs =>
    obtain rfl : '/' = c := by simpa [hasPrefix, hx] using h
    rw [hasPrefix, hx]
    rfl

variable {l : InternalLocation}

theorem slash_text (h : l.number.isSome) : hasPrefix l.text "/" = true := by
  obtain ⟨cs, hcs⟩ := head?_eq_some_iff.mp (head_text h)
  rw [hasPrefix, hcs]
  rfl

theorem number_of_mem_targetLocations (hp : p ∈ placedTargets dynamicReload e)
    (hmem : l ∈ targetLocations p) : l.number.isSome := by
  unfold targetLocations at hmem
  split at hmem
  · rw [(number_of_location (mem_of_mem_place hp) (Option.mem_toList.mp hmem)).2]
    rfl
  · obtain ⟨i, -, rfl⟩ := mem_map.mp hmem
    rfl

/-- The entry of a target is a variable it defines or a location it refers to. -/
theorem targetEntry_cases (hmatches : e.2.2.routeMatches ≠ [])
    (hp : p ∈ placedTargets dynamicReload e) :
    (∃ v ∈ targetVariables dynamicReload p, targetEntry namer dynamicReload p = v.text namer) ∨
      (p.2.splits = [] ∧ ∃ l ∈ targetReferences dynamicReload p,
        targetEntry namer dynamicReload p = l.text) := by
  unfold targetEntry
  by_cases hsplits : p.2.splits = []
  · obtain ⟨l, hl⟩ := location_of_mem_targetsOf (mem_of_mem_place hp) hmatches
    refine .inr ⟨hsplits, l, ?_, ?_⟩
    · rw [targetReferences, if_pos hsplits, hl]
      exact mem_singleton_self l
    · rw [if_pos hsplits, Target.path, hl]
      rfl
  · obtain ⟨v, hv, hmem⟩ := splitVariable_eq namer dynamicReload p.2.splits p.1
    refine .inl ⟨v, hmem p.2 rfl hsplits, ?_⟩
    rw [if_neg hsplits, hv]

theorem slash_of_mem_routeReferences (hl : l ∈ routeReferences dynamicReload e) :
    hasPrefix l.text "/" = true := by
  obtain ⟨p, hp, hl⟩ := mem_flatMap.mp hl
  exact slash_text (number_of_mem_targetLocations hp (targetReferences_subset hl))

/-- A map of a route leads to a digit, to a variable of the route or to a location. -/
theorem result_cases (hx : x ∈ resultsOf (routeParts namer dynamicReload e)) :
    (x = "0" ∨ x = "1") ∨ (∃ v ∈ routeVariables dynamicReload e, x = v.text namer) ∨
      ∃ l ∈ routeReferences dynamicReload e, x = l.text := by
  rcases mem_resultsOf_routeParts.mp hx with
    ⟨hmatches, hcondition | ⟨p, hp, rfl⟩⟩ | ⟨p, hp, hresult⟩
  · rcases mem_results_conditionMaps hcondition with hzero | hone | ⟨v, hv, rfl⟩
    · exact .inl (.inl hzero)
    · exact .inl (.inr hone)
    · exact .inr (.inl ⟨v, mem_append_left _ hv, rfl⟩)
  · rcases targetEntry_cases hmatches hp with ⟨v, hv, heq⟩ | ⟨-, l, hl, heq⟩
    · exact .inr (.inl ⟨v, mem_routeVariables_of_target hp hv, heq⟩)
    · exact .inr (.inr ⟨l, mem_flatMap.mpr ⟨p, hp, hl⟩, heq⟩)
  · obtain ⟨v, hv, rfl⟩ := mem_resultsOf_staticParts hresult
    exact .inr (.inl ⟨v, mem_routeVariables_of_target hp hv, rfl⟩)

theorem variable_of_result
    (hx : x ∈ resultsOf (routeParts namer dynamicReload e)) (hdollar : hasPrefix x "$" = true) :
    ∃ v ∈ routeVariables dynamicReload e, x = v.text namer := by
  rcases result_cases hx with (rfl | rfl) | hv | ⟨l, hl, rfl⟩
  · cases hdollar
  · cases hdollar
  · exact hv
  · rw [not_dollar_of_slash (slash_of_mem_routeReferences hl)] at hdollar
    cases hdollar

theorem variable_of_redirect {redirect : InternalRedirectLocation}
    (h : redirectOf namer dynamicReload e.2.1 e.1 e.2.2 = some redirect) :
    ∃ v ∈ routeVariables dynamicReload e, redirect.destination = v.text namer := by
  obtain ⟨scIndex, index, r⟩ := e
  unfold redirectOf at h
  split_ifs at h with hmatches hsplits
  · cases h
    refine ⟨.matchesMap index, mem_append_left _ ?_, rfl⟩
    rw [matchVariables, if_neg hmatches]
    exact mem_append_right _ (mem_singleton_self _)
  · cases h
    have hmatches : r.routeMatches = [] := not_not.mp hmatches
    obtain ⟨v, hv, hmem⟩ := splitVariable_eq namer dynamicReload r.splits scIndex
    refine ⟨v, ?_, hv⟩
    have hp : (scIndex, defaultTargetOf index r) ∈
        placedTargets dynamicReload (scIndex, index, r) := by
      simp [placedTargets, targetsOf, hmatches]
    exact mem_routeVariables_of_target hp (hmem _ rfl hsplits)

theorem mem_routeReferences_iff :
    ((x ∈ resultsOf (routeParts namer dynamicReload e) ∨
        x ∈ valuesOf (routeParts namer dynamicReload e)) ∧ hasPrefix x "/" = true) ↔
      ∃ l ∈ routeReferences dynamicReload e, x = l.text := by
  constructor
  · rintro ⟨hx | hx, hslash⟩
    · rcases result_cases hx with (rfl | rfl) | ⟨v, -, rfl⟩ | hl
      · cases hslash
      · cases hslash
      · rw [not_slash_text] at hslash
        cases hslash
      · exact hl
    · obtain ⟨p, hp, -, l, hl, rfl⟩ := mem_valuesOf_routeParts.mp hx
      exact ⟨l, mem_flatMap.mpr ⟨p, hp, hl⟩, rfl⟩
  · rintro ⟨l, hl, rfl⟩
    refine ⟨?_, slash_of_mem_routeReferences hl⟩
    obtain ⟨p, hp, hl⟩ := mem_flatMap.mp hl
    by_cases hsplits : p.2.splits = []
    · have hlocation : p.2.location = some l := by
        rw [targetReferences, if_pos hsplits] at hl
        exact Option.mem_toList.mp hl
      have hmatches := (number_of_location (mem_of_mem_place hp) hlocation).1
      refine .inl (mem_resultsOf_routeParts.mpr (.inl ⟨hmatches, .inr ⟨p, hp, ?_⟩⟩))
      rw [targetEntry, if_pos hsplits, Target.path, hlocation]
      rfl
    · exact .inr (mem_valuesOf_routeParts.mpr ⟨p, hp, hsplits, l, hl, rfl⟩)

end

end IngressController.Configs
