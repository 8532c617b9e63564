import IngressController.Generator.Locations

/-! # Routing of a route

A route becomes a location, split clients with a location for each split, or maps that choose
among matches. Names are numbered by what was generated before: split clients by the number of
split clients, return locations by their number and matches by the routes with matches.
-/

namespace IngressController.Configs

open GoString Version2

/-- What splits and matches generate, in the order it is generated. -/
structure RoutingParts where
  maps : List Map := []
  locations : List Location := []
  splitClients : List SplitClient := []
  returnLocations : List ReturnLocation := []
  keyValZones : List KeyValZone := []
  keyVals : List KeyVal := []
  twoWaySplitClients : List TwoWaySplitClients := []

/-- The source's `routingCfg`; the branch of an action has no redirect. -/
structure RoutingCfg extends RoutingParts where
  internalRedirectLocation : Option InternalRedirectLocation

namespace RoutingParts

def append (a b : RoutingParts) : RoutingParts where
  maps := a.maps ++ b.maps
  locations := a.locations ++ b.locations
  splitClients := a.splitClients ++ b.splitClients
  returnLocations := a.returnLocations ++ b.returnLocations
  keyValZones := a.keyValZones ++ b.keyValZones
  keyVals := a.keyVals ++ b.keyVals
  twoWaySplitClients := a.twoWaySplitClients ++ b.twoWaySplitClients

instance : Append RoutingParts := ⟨append⟩

end RoutingParts

variable (params : LocationParams) (namer : VariableNamer) (weightChangesDynamicReload : Bool)

def actionParts (path : String) (action : Option Action)
    (internal : Bool) (retLocIndex : Nat) : Option RoutingParts := do
  let (loc, returnLoc) ← locationOfAction params path action internal retLocIndex
  some { locations := [loc], returnLocations := returnLoc.toList }

/-- How many ways of splitting are prepared when weights change without a reload. -/
def splitClientAmountWhenWeightChangesDynamicReload : Nat := 101

def splitClientsKeyValZoneSize : String := "100k"

def keyvalZoneBasePath : String := "/etc/nginx/state_files"

variable (splits : List Split)

/-- Splits whose weights may change without a reload. -/
def isDynamicSplit : Bool :=
  weightChangesDynamicReload && splits.length = 2

/-- The number of split clients some splits take; no splits take none. -/
def splitClientsAmount : Nat :=
  if splits = [] then 0
  else if isDynamicSplit weightChangesDynamicReload splits then
    splitClientAmountWhenWeightChangesDynamicReload
  else 1

variable (scIndex : Nat)

def splitVariable : String :=
  if isDynamicSplit weightChangesDynamicReload splits then
    namer.getNameOfMapForSplitClientIndex scIndex
  else namer.getNameForSplitClientVariable scIndex

/-- A part of the requests; a part of no size is left out. -/
def distribution (scIndex i : Nat) (weight : Int) : List Distribution :=
  if weight = 0 then []
  else [{ weight := toString weight ++ "%", value := splitLocationPath scIndex i }]

def distributions (splits : List Split) : List Distribution :=
  splits.zipIdx.flatMap fun (s, i) => distribution scIndex i s.weight

def splitClientForWeights (scIndex i : Nat) : SplitClient where
  source := "$request_id"
  variableName := namer.getNameOfSplitClientsForWeights scIndex i (100 - i)
  distributions := distribution scIndex 0 i ++ distribution scIndex 1 (100 - i : Nat)

/-- All ways of splitting in two, and the map that chooses one by the stored weights. -/
def generateSplitsForWeightChangesDynamicReload : List SplitClient × Map :=
  let weights := List.range splitClientAmountWhenWeightChangesDynamicReload
  let (w, w') := match splits with
    | s :: s' :: _ => if s.weight < s'.weight then (0, 100) else (100, 0)
    | _ => (100, 0)
  (weights.map (splitClientForWeights namer scIndex),
   { source := namer.getNameOfKeyvalForSplitClientIndex scIndex
     variableName := namer.getNameOfMapForSplitClientIndex scIndex
     parameters := weights.map (fun i => {
         value := namer.getNameOfKeyOfMapForWeights scIndex i (100 - i : Nat)
         result := namer.getNameOfSplitClientsForWeights scIndex i (100 - i) }) ++
       [{ value := "default", result := namer.getNameOfSplitClientsForWeights scIndex w w' }] })

/-- Everything some splits generate except their locations. -/
def splitParts : RoutingParts :=
  if isDynamicSplit weightChangesDynamicReload splits then
    let (splitClients, weightMap) :=
      generateSplitsForWeightChangesDynamicReload namer splits scIndex
    let zoneName := namer.getNameOfKeyvalZoneForSplitClientIndex scIndex
    { splitClients
      maps := [weightMap]
      keyValZones := [{
        name := zoneName
        size := splitClientsKeyValZoneSize
        state := keyvalZoneBasePath ++ "/" ++ zoneName ++ ".json" }]
      keyVals := [{
        key := namer.getNameOfKeyvalKeyForSplitClientIndex scIndex
        variableName := namer.getNameOfKeyvalForSplitClientIndex scIndex
        zoneName }]
      twoWaySplitClients := [{
        key := namer.getNameOfKeyvalKeyForSplitClientIndex scIndex
        variableName := namer.getNameOfKeyvalForSplitClientIndex scIndex
        zoneName
        weights := splits.map Split.weight
        splitClientsIndex := scIndex }] }
  else
    { splitClients := [{
        source := "$request_id"
        variableName := namer.getNameForSplitClientVariable scIndex
        distributions := distributions scIndex splits }] }

variable (scIndex retLocIndex : Nat)

def splitStep (acc : RoutingParts) (e : Split × Nat) : Option RoutingParts := do
  let parts ← actionParts params (splitLocationPath scIndex e.2) e.1.action true
    (retLocIndex + acc.returnLocations.length)
  some (acc ++ parts)

/-- One location for each split, also for those of weight zero. -/
def splitLocations (splits : List Split) : Option RoutingParts :=
  splits.zipIdx.foldlM (splitStep params scIndex retLocIndex) {}

def generateSplits (splits : List Split) : Option RoutingParts := do
  let locations ← splitLocations params scIndex retLocIndex splits
  some (splitParts namer weightChangesDynamicReload splits scIndex ++ locations)

def generateDefaultSplitsConfig (route : Route) : Option RoutingCfg := do
  let parts ← generateSplits params namer weightChangesDynamicReload scIndex retLocIndex
    route.splits
  some {
    toRoutingParts := parts
    internalRedirectLocation := some {
      path := generatePath route.path
      destination := splitVariable namer weightChangesDynamicReload route.splits scIndex } }

def specialMapParameters : List String := ["default", "hostnames", "include", "volatile"]

/-- The key in a map for a value and whether the value is negated. -/
def generateValueForMatchesRouteMap (matchedValue : String) : String × Bool :=
  let key (value : String) :=
    if value ∈ specialMapParameters then "\\" ++ value else "\"" ++ value ++ "\""
  match matchedValue.toList with
  | [] => ("\"\"", false)
  | '!' :: value => (key (String.ofList value), true)
  | _ => (key matchedValue, false)

def generateParametersForMatchesRouteMap (matchedValue successfulResult : String) :
    List Parameter :=
  let (value, isNegative) := generateValueForMatchesRouteMap matchedValue
  let (valueResult, defaultResult) :=
    if isNegative then ("0", successfulResult) else (successfulResult, "0")
  [{ value, result := valueResult }, { value := "default", result := defaultResult }]

def getNameForSourceForMatchesRouteMapFromCondition (condition : Condition) : String :=
  if condition.header ≠ "" then "$http_" ++ replaceAll condition.header '-' '_'
  else if condition.cookie ≠ "" then "$cookie_" ++ condition.cookie
  else if condition.argument ≠ "" then "$arg_" ++ condition.argument
  else condition.variableName

/-- The map of one condition: success leads to the next condition or gives `1`. -/
def conditionMap (index i j amount : Nat) (c : Condition) : Map where
  source := getNameForSourceForMatchesRouteMapFromCondition c
  variableName := namer.getNameForVariableForMatchesRouteMap index i j
  parameters := generateParametersForMatchesRouteMap c.value
    (if j + 1 < amount then namer.getNameForVariableForMatchesRouteMap index i (j + 1) else "1")

def conditionMaps (index : Nat) (routeMatches : List Match) : List Map :=
  routeMatches.zipIdx.flatMap fun (m, i) =>
    m.conditions.zipIdx.map fun (c, j) => conditionMap namer index i j m.conditions.length c

def matchTarget (index scIndex i : Nat) (splits : List Split) : String :=
  if splits = [] then matchLocationPath index i
  else splitVariable namer weightChangesDynamicReload splits scIndex

def defaultTarget (index scIndex : Nat) (splits : List Split) : String :=
  if splits = [] then defaultLocationPath index
  else splitVariable namer weightChangesDynamicReload splits scIndex

/-- The entries of the main map from the `i`-th match on, and the number of the split clients that
follow those of the matches. -/
def mainParameters (index : Nat) :
    Nat → Nat → List Match → List Parameter × Nat
  | scIndex, _, [] => ([], scIndex)
  | scIndex, i, m :: routeMatches =>
    let (parameters, scIndex') := mainParameters index
      (scIndex + splitClientsAmount weightChangesDynamicReload m.splits) (i + 1) routeMatches
    ({ value := "~^" ++ String.ofList (List.replicate i '0') ++ "1"
       result := matchTarget namer weightChangesDynamicReload index scIndex i m.splits } ::
      parameters, scIndex')

/-- The main map decodes the results of all matches, one character each. -/
def mainMap (index scIndex : Nat) (route : Route) : Map :=
  let (parameters, scIndex) :=
    mainParameters namer weightChangesDynamicReload index scIndex 0 route.routeMatches
  { source := String.join (route.routeMatches.zipIdx.map fun (_, i) =>
      namer.getNameForVariableForMatchesRouteMap index i 0)
    variableName := namer.getNameForVariableForMatchesRouteMainMap index
    parameters := parameters ++ [{
      value := "default"
      result := defaultTarget namer weightChangesDynamicReload index scIndex route.splits }] }

/-- The parts of a match or of the default: those of its splits or the location of its action. The
numbers follow from what the matches before it generated. -/
def targetParts (path : String)
    (splits : List Split) (action : Option Action) (acc : RoutingParts) : Option RoutingParts := do
  let parts ←
    if splits = [] then
      actionParts params path action true (retLocIndex + acc.returnLocations.length)
    else
      generateSplits params namer weightChangesDynamicReload (scIndex + acc.splitClients.length)
        (retLocIndex + acc.returnLocations.length) splits
  some (acc ++ parts)

variable (index scIndex retLocIndex : Nat)

def matchStep (acc : RoutingParts) (e : Match × Nat) : Option RoutingParts :=
  targetParts params namer weightChangesDynamicReload scIndex retLocIndex
    (matchLocationPath index e.2) e.1.splits e.1.action acc

def matchesParts (route : Route) : Option RoutingParts := do
  let acc ← route.routeMatches.zipIdx.foldlM
    (matchStep params namer weightChangesDynamicReload index scIndex retLocIndex) {}
  targetParts params namer weightChangesDynamicReload scIndex retLocIndex
    (defaultLocationPath index) route.splits route.action acc

def generateMatchesConfig (route : Route) : Option RoutingCfg := do
  let parts ← matchesParts params namer weightChangesDynamicReload index scIndex retLocIndex route
  some {
    toRoutingParts := { parts with
      maps := conditionMaps namer index route.routeMatches ++
        [mainMap namer weightChangesDynamicReload index scIndex route] ++ parts.maps }
    internalRedirectLocation := some {
      path := generatePath route.path
      destination := namer.getNameForVariableForMatchesRouteMainMap index } }

structure RoutingIndex where
  matchesRoutes : Nat
  splitClients : Nat
  returnLocations : Nat

/-- The three branches for a rendered route: matches, splits or an action. -/
def generateRouting (index : RoutingIndex) (route : Route) : Option RoutingCfg :=
  if route.routeMatches ≠ [] then
    generateMatchesConfig params namer weightChangesDynamicReload index.matchesRoutes
      index.splitClients index.returnLocations route
  else if route.splits ≠ [] then
    generateDefaultSplitsConfig params namer weightChangesDynamicReload index.splitClients
      index.returnLocations route
  else do
    let parts ← actionParts params route.path route.action false index.returnLocations
    some { toRoutingParts := parts, internalRedirectLocation := none }

end IngressController.Configs
