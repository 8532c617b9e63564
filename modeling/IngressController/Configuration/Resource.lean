import IngressController.Api.Networking
import IngressController.Api.VirtualServer
import IngressController.Library.ChangeLog

/-! # Configuration resources

The three kinds of top-level resources, their names, their comparison and the
problems reported about objects.
-/

namespace IngressController

structure MinionConfiguration where
  ingress : Ingress
  validPaths : GoMap Bool := ∅
deriving DecidableEq

structure IngressConfiguration where
  ingress : Ingress
  isMaster : Bool := false
  minions : List MinionConfiguration := []
  validHosts : GoMap Bool := ∅
  warnings : List String := []
  childWarnings : GoMap (List String) := ∅
deriving DecidableEq

structure VirtualServerConfiguration where
  virtualServer : VirtualServer
  virtualServerRoutes : List VirtualServerRoute := []
  virtualServerRouteSelectors : GoMap (List String) := ∅
  warnings : List String := []
  httpPort : Int := 0
  httpsPort : Int := 0
  httpIPv4 : String := ""
  httpIPv6 : String := ""
  httpsIPv4 : String := ""
  httpsIPv6 : String := ""
deriving DecidableEq

structure TransportServerConfiguration where
  listenerPort : Int := 0
  ipv4 : String := ""
  ipv6 : String := ""
  transportServer : TransportServer
  warnings : List String := []
deriving DecidableEq

inductive Resource where
  | ingress (ic : IngressConfiguration)
  | virtualServer (vsc : VirtualServerConfiguration)
  | transportServer (tsc : TransportServerConfiguration)
deriving DecidableEq

theorem map_eq_iff_zip {α β γ : Type} {l : List α} {l' : List β} {f : α → γ} {g : β → γ}
    (hlen : l.length = l'.length) : l.map f = l'.map g ↔ ∀ p ∈ l.zip l', f p.1 = g p.2 := by
  rw [← List.forall₂_eq_eq_eq, List.forall₂_map_left_iff, List.forall₂_map_right_iff,
    List.forall₂_iff_zip]
  simp [hlen]

def IngressConfiguration.isEqual (ic ingConfig : IngressConfiguration) : Bool :=
  compareObjectMetasWithAnnotations ic.ingress.objectMeta ingConfig.ingress.objectMeta &&
  ic.validHosts = ingConfig.validHosts &&
  ic.isMaster = ingConfig.isMaster &&
  ic.minions.length = ingConfig.minions.length &&
  (ic.minions.zip ingConfig.minions).all fun (m, m') =>
    compareObjectMetasWithAnnotations m.ingress.objectMeta m'.ingress.objectMeta

/-- The selector maps are compared entry by entry, each list of routes as a set. -/
def selectorsEqual (selectors others : GoMap (List String)) : Bool :=
  selectors.size = others.size &&
  selectors.toList.all fun (selector, routes) =>
    match others[selector]? with
    | none => false
    | some otherRoutes =>
      routes.length = otherRoutes.length && otherRoutes.all fun r => routes.contains r

def VirtualServerConfiguration.isEqual (vsc vsConfig : VirtualServerConfiguration) : Bool :=
  compareObjectMetas vsc.virtualServer.objectMeta vsConfig.virtualServer.objectMeta &&
  vsc.virtualServerRoutes.length = vsConfig.virtualServerRoutes.length &&
  ((vsc.virtualServerRoutes.zip vsConfig.virtualServerRoutes).all fun (r, r') =>
    compareObjectMetas r.objectMeta r'.objectMeta) &&
  selectorsEqual vsc.virtualServerRouteSelectors vsConfig.virtualServerRouteSelectors

def TransportServerConfiguration.isEqual (tsc tsConfig : TransportServerConfiguration) : Bool :=
  compareObjectMetas tsc.transportServer.objectMeta tsConfig.transportServer.objectMeta &&
  tsc.listenerPort = tsConfig.listenerPort

namespace Resource

def getObjectMeta : Resource → ObjectMeta
  | ingress ic => ic.ingress.objectMeta
  | virtualServer vsc => vsc.virtualServer.objectMeta
  | transportServer tsc => tsc.transportServer.objectMeta

def kind : Resource → String
  | ingress _ => ingressKind
  | virtualServer _ => virtualServerKind
  | transportServer _ => transportServerKind

def getKeyWithKind (r : Resource) : String :=
  r.kind ++ "/" ++ getResourceKey r.getObjectMeta

def wins (r resource : Resource) : Bool :=
  chooseObjectMetaWinner r.getObjectMeta resource.getObjectMeta

def addWarning (warning : String) : Resource → Resource
  | ingress ic => ingress { ic with warnings := ic.warnings ++ [warning] }
  | virtualServer vsc => virtualServer { vsc with warnings := vsc.warnings ++ [warning] }
  | transportServer tsc => transportServer { tsc with warnings := tsc.warnings ++ [warning] }

def warnings : Resource → List String
  | ingress ic => ic.warnings
  | virtualServer vsc => vsc.warnings
  | transportServer tsc => tsc.warnings

def isEqual : Resource → Resource → Bool
  | ingress ic, ingress ic' => ic.isEqual ic'
  | virtualServer vsc, virtualServer vsc' => vsc.isEqual vsc'
  | transportServer tsc, transportServer tsc' => tsc.isEqual tsc'
  | _, _ => false

@[simp] theorem warnings_addWarning (r : Resource) (w : String) :
    (r.addWarning w).warnings = r.warnings ++ [w] := by
  cases r <;> rfl

end Resource

private theorem kind_slash_free (r : Resource) : '/' ∉ r.kind.toList := by
  cases r <;> dsimp only [Resource.kind] <;> decide

/-- The name of a resource determines its kind and the key of its object. -/
theorem getKeyWithKind_inj {r r' : Resource} :
    r.getKeyWithKind = r'.getKeyWithKind ↔
      r.kind = r'.kind ∧ getResourceKey r.getObjectMeta = getResourceKey r'.getObjectMeta := by
  constructor
  · exact slash_split (kind_slash_free r) (kind_slash_free r')
  · rintro ⟨h1, h2⟩
    simp [Resource.getKeyWithKind, h1, h2]

theorem getKeyWithKind_of_isEqual {r r' : Resource} (h : r.isEqual r' = true) :
    r.getKeyWithKind = r'.getKeyWithKind := by
  rw [getKeyWithKind_inj, getResourceKey_inj]
  cases r <;> cases r' <;>
    simp [Resource.isEqual, IngressConfiguration.isEqual, VirtualServerConfiguration.isEqual,
      TransportServerConfiguration.isEqual, compareObjectMetasWithAnnotations,
      compareObjectMetas_iff] at h <;>
    simp [Resource.kind, Resource.getObjectMeta, h]

inductive ConfigurationObject where
  | ingress (ing : Ingress)
  | virtualServer (vs : VirtualServer)
  | virtualServerRoute (vsr : VirtualServerRoute)
  | transportServer (ts : TransportServer)
deriving DecidableEq

structure ConfigurationProblem where
  object : ConfigurationObject
  isError : Bool
  reason : String
  message : String

def eventReasonRejected : String := "Rejected"
def eventReasonIgnored : String := "Ignored"
def eventReasonNoVirtualServerFound : String := "NoVirtualServerFound"
def eventReasonNoIngressMasterFound : String := "NoIngressMasterFound"

def compareConfigurationProblems (problem1 problem2 : ConfigurationProblem) : Bool :=
  problem1.isError = problem2.isError && problem1.reason = problem2.reason &&
    problem1.message = problem2.message

/-- Problems that are new or whose text changed, in key order. -/
def detectChangesInProblems (newProblems oldProblems : GoMap ConfigurationProblem) :
    List ConfigurationProblem :=
  newProblems.toList.filterMap fun (key, newP) =>
    match oldProblems[key]? with
    | none => some newP
    | some oldP => if compareConfigurationProblems newP oldP then none else some newP

abbrev ResourceChange := ChangeLog.Change Resource

end IngressController
