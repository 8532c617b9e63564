import IngressController.Generator.Config

/-! # Names in a generated configuration

The namers for upstreams and variables and the names of internal and named locations.
Two names of one VirtualServer are equal only if they are of the same kind and have the
same numbers.
-/

namespace IngressController.Configs

open GoString

/-- `head` is the source's `prefix`. -/
structure UpstreamNamer where
  head : String
  nspace : String

def newUpstreamNamerForVirtualServer (vs : VirtualServer) : UpstreamNamer where
  head := "vs_" ++ vs.objectMeta.nspace.val ++ "_" ++ vs.objectMeta.name.val
  nspace := vs.objectMeta.nspace.val

def newUpstreamNamerForVirtualServerRoute (vs : VirtualServer) (vsr : VirtualServerRoute) :
    UpstreamNamer where
  head := "vs_" ++ vs.objectMeta.nspace.val ++ "_" ++ vs.objectMeta.name.val ++ "_vsr_" ++
    vsr.objectMeta.nspace.val ++ "_" ++ vsr.objectMeta.name.val
  nspace := vsr.objectMeta.nspace.val

namespace UpstreamNamer

def getNameForUpstream (namer : UpstreamNamer) (upstream : String) : String :=
  namer.head ++ "_" ++ upstream

def getNameForUpstreamFromAction (namer : UpstreamNamer) (action : Action) : String :=
  let upstream := match action.proxy with
    | some proxy => if proxy.upstream ≠ "" then proxy.upstream else action.pass
    | none => action.pass
  namer.getNameForUpstream upstream

end UpstreamNamer

structure VariableNamer where
  safeNsName : String

def newVSVariableNamer (vs : VirtualServer) : VariableNamer :=
  ⟨replaceAll (vs.objectMeta.nspace.val ++ "_" ++ vs.objectMeta.name.val) '-' '_'⟩

namespace VariableNamer

variable (namer : VariableNamer) (i : Nat)

def getNameOfKeyvalZoneForSplitClientIndex : String :=
  "vs_" ++ namer.safeNsName ++ "_keyval_zone_split_clients_" ++ toString i

def getNameOfKeyvalForSplitClientIndex : String :=
  "$vs_" ++ namer.safeNsName ++ "_keyval_split_clients_" ++ toString i

def getNameOfKeyvalKeyForSplitClientIndex : String :=
  "\"vs_" ++ namer.safeNsName ++ "_keyval_key_split_clients_" ++ toString i ++ "\""

def getNameOfMapForSplitClientIndex : String :=
  "$vs_" ++ namer.safeNsName ++ "_map_split_clients_" ++ toString i

/-- The weights come from splits, so they are integers. -/
def getNameOfKeyOfMapForWeights (w w' : Int) : String :=
  "\"vs_" ++ namer.safeNsName ++ "_split_clients_" ++ toString i ++ "_" ++ toString w ++ "_" ++
    toString w' ++ "\""

def getNameOfSplitClientsForWeights (i w w' : Nat) : String :=
  "$vs_" ++ namer.safeNsName ++ "_split_clients_" ++ toString i ++ "_" ++ toString w ++ "_" ++
    toString w'

def getNameForSplitClientVariable : String :=
  "$vs_" ++ namer.safeNsName ++ "_splits_" ++ toString i

def getNameForVariableForMatchesRouteMap (matchesIndex matchIndex conditionIndex : Nat) :
    String :=
  "$vs_" ++ namer.safeNsName ++ "_matches_" ++ toString matchesIndex ++ "_match_" ++
    toString matchIndex ++ "_cond_" ++ toString conditionIndex

def getNameForVariableForMatchesRouteMainMap (matchesIndex : Nat) : String :=
  "$vs_" ++ namer.safeNsName ++ "_matches_" ++ toString matchesIndex

end VariableNamer

def internalLocationPrefix : String := "internal_location_"

def splitLocationPath (scIndex i : Nat) : String :=
  "/" ++ internalLocationPrefix ++ "splits_" ++ toString scIndex ++ "_split_" ++ toString i

def matchLocationPath (index i : Nat) : String :=
  "/" ++ internalLocationPrefix ++ "matches_" ++ toString index ++ "_match_" ++ toString i

def defaultLocationPath (index : Nat) : String :=
  "/" ++ internalLocationPrefix ++ "matches_" ++ toString index ++ "_default"

def returnLocationName (retLocIndex : Nat) : String := "@return_" ++ toString retLocIndex

def generateErrorPageName (errPageIndex i : Nat) : String :=
  "@error_page_" ++ toString errPageIndex ++ "_" ++ toString i

def namedMeta (nspace name : String)
    (h : nspace.toList.all isNameChar = true := by exact Eq.refl true)
    (h' : name.toList.all isNameChar = true := by exact Eq.refl true) : ObjectMeta :=
  { nspace := ⟨nspace, h⟩, name := ⟨name, h'⟩ }

end IngressController.Configs
