import Mathlib.Data.List.Sort
import IngressController.Configuration.State
import IngressController.Validation.Text

/-! # The VirtualServerRoutes of a VirtualServer

One pass over the routes collects the references, regex routes are validated with
all their paths, and the result is cleared of repeated routes and of routes with
conflicting paths.
-/

namespace IngressController

open Validation (normalizePath)

def missingVSR (vsrKey : String) : String :=
  "VirtualServerRoute " ++ vsrKey ++ " doesn't exist or invalid"

def invalidVSR (vsrKey err : String) : String :=
  "VirtualServerRoute " ++ vsrKey ++ " is invalid: " ++ err

def duplicateVSR (vs : ObjectMeta) (nsName : String) : String :=
  "VS " ++ getResourceKey vs ++ " has duplicate VirtualServerRoutes " ++ nsName

/-- A VSR and all the regex paths of the VirtualServer that reference it. -/
structure RegexVSREntry where
  vsr : VirtualServerRoute
  paths : List String
  firstSeenIdx : Nat

/-- The collection under construction, with the two tables the pass keeps on the side. -/
structure VsrCollection where
  vsrs : List VirtualServerRoute := []
  regexEntries : GoMap RegexVSREntry := ∅
  vsrSelectors : GoMap (List String) := ∅
  warnings : List String := []
  regexSeenPaths : GoMap (List String) := ∅
  seenVSRs : List String := []

/-- Keep the VSRs not seen yet and warn about the others: the kept VSRs, the warnings and the
keys seen afterwards. -/
def dropSeenVSRs (vs : ObjectMeta) :
    List String → List VirtualServerRoute → List VirtualServerRoute × List String × List String
  | seen, [] => ([], [], seen)
  | seen, vsr :: rest =>
    if objectKey vsr ∈ seen then
      let (kept, warnings, seen) := dropSeenVSRs vs seen rest
      (kept, duplicateVSR vs (objectKey vsr) :: warnings, seen)
    else
      let (kept, warnings, seen) := dropSeenVSRs vs (objectKey vsr :: seen) rest
      (vsr :: kept, warnings, seen)

section Collect

variable (env : Env) (routes : Store VirtualServerRoute)

def validateVSRs (r : Route) (vsHost : String) (vsNamespace : ResourceName) :
    List VirtualServerRoute × List String :=
  let vsrKey := vsrKeyOf vsNamespace r.route
  match routes.get vsrKey with
  | none => ([], [missingVSR vsrKey])
  | some vsr =>
    match env.validateVirtualServerRouteForVirtualServer vsr vsHost [r.path] with
    | some err => ([], [invalidVSR vsrKey err])
    | none => ([vsr], [])

/-- What a selector found: the accepted VSRs, their keys and the warnings. -/
structure SelectorMatches where
  vsrs : List VirtualServerRoute := []
  keys : List String := []
  warnings : List String := []

def SelectorMatches.visit (sel : LabelSelector) (vsHost path : String)
    (acc : SelectorMatches) (vsrKey : String) : SelectorMatches :=
  match routes.get vsrKey with
  | none => acc
  | some vsr =>
    if sel.selects vsr.objectMeta.labels then
      match env.validateVirtualServerRouteForVirtualServer vsr vsHost [path] with
      | some err => { acc with warnings := acc.warnings ++ [invalidVSR vsrKey err] }
      | none => { acc with vsrs := acc.vsrs ++ [vsr], keys := acc.keys ++ [vsrKey] }
    else acc

/-- `order` is the order in which the loop visits the stored VSRs. -/
def validateVSRSelectors (order : List String) (selector : RouteSelector) (path vsHost : String) :
    List VirtualServerRoute × GoMap (List String) × List String :=
  match env.labelSelectorAsSelector selector.matchLabels with
  | .error err =>
    ([], ∅, ["VirtualServerRoute LabelSelector " ++ env.labelSelectorText selector.matchLabels ++
      " is invalid: " ++ err])
  | .ok sel =>
    let found := order.foldl (SelectorMatches.visit env routes sel vsHost path) {}
    (found.vsrs, (∅ : GoMap (List String)).insert sel.text (found.keys.insertionSort (· ≤ ·)),
      found.warnings)

variable (vs : VirtualServer)

def VsrCollection.addValid (validVsrs : List VirtualServerRoute)
    (col : VsrCollection) : VsrCollection :=
  let (kept, warnings, seen) := dropSeenVSRs vs.objectMeta col.seenVSRs validVsrs
  { col with vsrs := col.vsrs ++ kept, warnings := col.warnings ++ warnings, seenVSRs := seen }

def VsrCollection.collectRegexNamedRoute (routeName path : String)
    (routeIdx : Nat) (col : VsrCollection) : VsrCollection :=
  let normPath := normalizePath path
  let vsrKey := vsrKeyOf vs.objectMeta.nspace routeName
  match routes.get vsrKey with
  | none => { col with warnings := col.warnings ++ [missingVSR vsrKey] }
  | some vsr =>
    match col.regexEntries[vsrKey]? with
    | some entry =>
      let seen := (col.regexSeenPaths[vsrKey]?).getD []
      if normPath ∈ seen then col
      else
        { col with
          regexSeenPaths := col.regexSeenPaths.insert vsrKey (normPath :: seen)
          regexEntries := col.regexEntries.insert vsrKey
            { entry with paths := entry.paths ++ [path] } }
    | none =>
      { col with
        regexEntries := col.regexEntries.insert vsrKey
          { vsr, paths := [path], firstSeenIdx := routeIdx }
        regexSeenPaths := col.regexSeenPaths.insert vsrKey [normPath] }

def VsrCollection.collectNonRegexNamedRoute (r : Route) (col : VsrCollection) : VsrCollection :=
  let (validVsrs, vsrWarnings) := validateVSRs env routes r vs.spec.host vs.objectMeta.nspace
  VsrCollection.addValid vs validVsrs { col with warnings := col.warnings ++ vsrWarnings }

def VsrCollection.collectSelectorRoute (order : List String) (vs : VirtualServer) (r : Route)
    (selector : RouteSelector) (col : VsrCollection) : VsrCollection :=
  let (validVsrs, selectors, vsrWarnings) :=
    validateVSRSelectors env routes order selector r.path vs.spec.host
  VsrCollection.addValid vs validVsrs
    { col with
      warnings := col.warnings ++ vsrWarnings
      vsrSelectors := col.vsrSelectors.insertMany selectors.toList }

/-- One route of the VirtualServer. A route with an action, splits or matches collects nothing. -/
def VsrCollection.collectRoute (ord : Order) (vs : VirtualServer) (col : VsrCollection)
    (r : Route) (i : Nat) : VsrCollection :=
  let isRegex := GoString.hasPrefix r.path "~"
  if r.route ≠ "" ∧ isRegex then col.collectRegexNamedRoute routes vs r.route r.path i
  else if r.route ≠ "" then col.collectNonRegexNamedRoute env routes vs r
  else
    match r.routeSelector with
    | some selector =>
      col.collectSelectorRoute env routes
        (ord.visit (.selector (objectKey vs) i) routes.sortedKeys) vs r selector
    | none => col

def classifyAndCollectVSRs (ord : Order) (vs : VirtualServer) : VsrCollection :=
  vs.spec.routes.zipIdx.foldl (fun col (r, i) => col.collectRoute env routes ord vs r i) {}

/-- The regex entries in the order of their first route. -/
def validateAndBuildRegexVSRs (entries : GoMap RegexVSREntry) (vsHost : String) :
    List VirtualServerRoute × List String :=
  let sorted := entries.toList.insertionSort fun e e' => e.2.firstSeenIdx ≤ e'.2.firstSeenIdx
  sorted.foldl (fun (vsrs, warnings) (key, entry) =>
    match env.validateVirtualServerRouteForVirtualServer entry.vsr vsHost entry.paths with
    | some err => (vsrs, warnings ++ [invalidVSR key err])
    | none => (vsrs ++ [entry.vsr], warnings)) ([], [])

end Collect

def deduplicateVSRSlice (vs : ObjectMeta) (vsrs : List VirtualServerRoute) :
    List VirtualServerRoute × List String :=
  let (kept, warnings, _) := dropSeenVSRs vs [] vsrs
  (kept, warnings)

/-- The first VSR of every path and the VSRs that repeat a path. -/
structure PathConflicts where
  paths : GoMap String := ∅
  warnings : List String := []
  vsrsToRemove : List String := []

def PathConflicts.visit (vsr : VirtualServerRoute) (acc : PathConflicts) (subroute : Route) :
    PathConflicts :=
  let normPath := normalizePath subroute.path
  match acc.paths[normPath]? with
  | some path =>
    let subRoutes := if objectKey vsr = path then path else objectKey vsr ++ " and " ++ path
    { acc with
      warnings := acc.warnings ++
        ["path " ++ subroute.path ++ " has conflicting subroutes on " ++ subRoutes]
      vsrsToRemove := acc.vsrsToRemove ++
        [getResourceKeyWithKind virtualServerRouteKind vsr.objectMeta] }
  | none => { acc with paths := acc.paths.insert normPath (objectKey vsr) }

variable (vsrs : List VirtualServerRoute)

def pathConflicts : PathConflicts :=
  vsrs.foldl (fun acc vsr => vsr.spec.subroutes.foldl (PathConflicts.visit vsr) acc) {}

def removeFromVSRSlice (vsrToRemove : String) : List VirtualServerRoute :=
  vsrs.eraseP fun vsr => getResourceKeyWithKind virtualServerRouteKind vsr.objectMeta = vsrToRemove

def validateDuplicateVSRPaths : List VirtualServerRoute × List String :=
  let conflicts := pathConflicts vsrs
  (conflicts.vsrsToRemove.foldl removeFromVSRSlice vsrs, conflicts.warnings)

/-- Prune the selector entries to the VSRs of the final list. Empty entries stay: they keep the
controller watching for label changes. -/
def syncVSRSelectors (vsrSelectors : GoMap (List String)) (vsrs : List VirtualServerRoute) :
    GoMap (List String) :=
  let finalKeys := vsrs.map objectKey
  vsrSelectors.map fun _ keys => keys.filter (· ∈ finalKeys)

def buildVirtualServerRoutes (env : Env) (routes : Store VirtualServerRoute) (ord : Order)
    (vs : VirtualServer) : List VirtualServerRoute × GoMap (List String) × List String :=
  let collected := classifyAndCollectVSRs env routes ord vs
  let (regexVsrs, regexWarnings) :=
    validateAndBuildRegexVSRs env collected.regexEntries vs.spec.host
  let (distinct, dupWarnings) :=
    deduplicateVSRSlice vs.objectMeta (collected.vsrs ++ regexVsrs)
  let (vsrs, pathWarnings) := validateDuplicateVSRPaths distinct
  (vsrs, syncVSRSelectors collected.vsrSelectors vsrs,
    collected.warnings ++ regexWarnings ++ dupWarnings ++ pathWarnings)

end IngressController
