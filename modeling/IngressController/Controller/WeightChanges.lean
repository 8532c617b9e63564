import IngressController.Generator.VirtualServer

/-! # Changing weights without a reload

An update of a VirtualServer or a VirtualServerRoute that changes nothing but the weights of two-way
splits is not rendered. The controller counts split clients by itself to find the key-value zones of
the splits that changed.
-/

namespace IngressController

open Configs

structure WeightUpdate where
  zone : String
  key : String
  value : String

def zeroOutSplitWeights (splits : List Split) : List Split :=
  if splits.length = 2 then splits.map fun s => { s with weight := 0 } else splits

def zeroOutRouteSplitWeights (r : Route) : Route :=
  { r with
    routeMatches := r.routeMatches.map fun m => { m with splits := zeroOutSplitWeights m.splits }
    splits := zeroOutSplitWeights r.splits }

def zeroOutVirtualServerSplitWeights (spec : VirtualServerSpec) : VirtualServerSpec :=
  { spec with routes := spec.routes.map zeroOutRouteSplitWeights }

def zeroOutVirtualServerRouteSplitWeights (spec : VirtualServerRouteSpec) :
    VirtualServerRouteSpec :=
  { spec with subroutes := spec.subroutes.map zeroOutRouteSplitWeights }

/-! ## Updates

Both versions have the same routes, matches and numbers of splits, so the old version has every
index that is read. -/

def weightAt (splits : List Split) (i : Nat) : Int := (splits[i]?.map Split.weight).getD 0

def weightsDiffer (old new : List Split) : Bool :=
  weightAt new 0 ≠ weightAt old 0 || weightAt new 1 ≠ weightAt old 1

variable (namer : VariableNamer)

def weightUpdate (splitClientsIndex : Nat) (w w' : Int) : WeightUpdate where
  zone := namer.getNameOfKeyvalZoneForSplitClientIndex splitClientsIndex
  key := namer.getNameOfKeyvalKeyForSplitClientIndex splitClientsIndex
  value := namer.getNameOfKeyOfMapForWeights splitClientsIndex w w'

structure WeightScan where
  splitClientsIndex : Nat := 0
  weightUpdates : List WeightUpdate := []

/-- Some splits of both versions. For changed splits the index advances by `extra` more. -/
def scanSplits (extra : Nat) (scan : WeightScan) (old new : List Split) : WeightScan :=
  if new.length = 2 then
    if weightsDiffer old new then
      { splitClientsIndex :=
          scan.splitClientsIndex + extra + splitClientAmountWhenWeightChangesDynamicReload
        weightUpdates := scan.weightUpdates ++
          [weightUpdate namer scan.splitClientsIndex (weightAt new 0) (weightAt new 1)] }
    else
      { scan with
        splitClientsIndex :=
          scan.splitClientsIndex + splitClientAmountWhenWeightChangesDynamicReload }
  else if new.length > 0 then { scan with splitClientsIndex := scan.splitClientsIndex + 1 }
  else scan

variable (scan : WeightScan)

def scanMatches (old new : List Match) : WeightScan :=
  (old.zip new).foldl (fun scan e => scanSplits namer 0 scan e.1.splits e.2.splits) scan

/-- A changed split of a route advances the index twice. -/
def scanRoute (e : Route × Route) : WeightScan :=
  scanSplits namer splitClientAmountWhenWeightChangesDynamicReload
    (scanMatches namer scan e.1.routeMatches e.2.routeMatches) e.1.splits e.2.splits

def scanSubroute (e : Route × Route) : WeightScan :=
  scanSplits namer 0 (scanMatches namer scan e.1.routeMatches e.2.routeMatches) e.1.splits
    e.2.splits

/-- The updates `processVSWeightChangesDynamicReload` makes. -/
def vsWeightUpdates (vsOld vsNew : VirtualServer) : List WeightUpdate :=
  ((vsOld.spec.routes.zip vsNew.spec.routes).foldl
    (scanRoute (newVSVariableNamer vsNew)) {}).weightUpdates

def addSplitsAmount (index : Nat) (splits : List Split) : Nat :=
  if splits.length = 2 then index + splitClientAmountWhenWeightChangesDynamicReload
  else if splits.length > 0 then index + 1
  else index

def addRouteAmount (index : Nat) (r : Route) : Nat :=
  addSplitsAmount (r.routeMatches.foldl (fun index m => addSplitsAmount index m.splits) index)
    r.splits

/-- The index at the first VirtualServerRoute of a name. -/
def indexAtName (name : String) : Nat → List VirtualServerRoute → Nat
  | index, [] => index
  | index, vsr :: vsrs =>
    if vsr.objectMeta.name.val = name then index
    else indexAtName name (vsr.spec.subroutes.foldl addRouteAmount index) vsrs

def getStartingSplitClientsIndex (vsr : VirtualServerRoute) (vsEx : VirtualServerEx) : Nat :=
  indexAtName vsr.objectMeta.name.val
    (vsEx.virtualServer.spec.routes.foldl addRouteAmount 0) vsEx.virtualServerRoutes

def splitsHaveWeightChanges (old new : List Split) : Bool :=
  new.length = 2 && weightsDiffer old new

def vsrHasWeightChanges (vsrOld vsrNew : VirtualServerRoute) : Bool :=
  (vsrOld.spec.subroutes.zip vsrNew.spec.subroutes).any fun e =>
    (e.1.routeMatches.zip e.2.routeMatches).any
        (fun m => splitsHaveWeightChanges m.1.splits m.2.splits) ||
      splitsHaveWeightChanges e.1.splits e.2.splits

/-- The updates `processVSRWeightChangesDynamicReload` makes; `vsEx` has the new version. -/
def vsrWeightUpdates (vsEx : VirtualServerEx) (vsrOld vsrNew : VirtualServerRoute) :
    List WeightUpdate :=
  if !vsrHasWeightChanges vsrOld vsrNew then []
  else
    ((vsrOld.spec.subroutes.zip vsrNew.spec.subroutes).foldl
      (scanSubroute (newVSVariableNamer vsEx.virtualServer))
      { splitClientsIndex := getStartingSplitClientsIndex vsrNew vsEx }).weightUpdates

end IngressController
