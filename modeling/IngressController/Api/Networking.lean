import IngressController.Api.Meta

/-! # Ingress, GlobalConfiguration and TransportServer objects

Optional pointers are `Option`, slices are lists and machine integers are `Int`
or `Nat`. Statuses are not modelled: no operation of the configuration reads them.
-/

namespace IngressController

structure ServiceBackendPort where
  name : String := ""
  number : Nat := 0
deriving DecidableEq

structure IngressServiceBackend where
  name : String
  port : ServiceBackendPort := {}
deriving DecidableEq

/-- `resource` tells only whether a resource backend is set. -/
structure IngressBackend where
  service : Option IngressServiceBackend := none
  resource : Bool := false
deriving DecidableEq

inductive PathType where
  | exact
  | prefixed
  | implementationSpecific
deriving DecidableEq

structure HTTPIngressPath where
  path : String
  pathType : Option PathType := none
  backend : IngressBackend := {}
deriving DecidableEq

/-- A rule; `http` is nil when the rule has no paths at all. -/
structure IngressRule where
  host : String
  http : Option (List HTTPIngressPath) := none
deriving DecidableEq

structure IngressTLS where
  hosts : List String := []
  secretName : String := ""
deriving DecidableEq

structure IngressSpec where
  ingressClassName : Option String := none
  defaultBackend : Option IngressBackend := none
  tls : List IngressTLS := []
  rules : List IngressRule
deriving DecidableEq

structure Ingress where
  objectMeta : ObjectMeta
  spec : IngressSpec
deriving DecidableEq

def mergeableIngressType : String := "nginx.org/mergeable-ingress-type"

variable (ing : Ingress)

def isMinion : Bool :=
  ing.objectMeta.annotation mergeableIngressType = "minion"

def isMaster : Bool :=
  ing.objectMeta.annotation mergeableIngressType = "master"

def isChallengeIngress : Bool :=
  (ing.objectMeta.labels["acme.cert-manager.io/http01-solver"]?).getD "" = "true"

/-- The host of the first rule; the operations ask for it only when there is one. -/
def Ingress.firstHost : String :=
  (ing.spec.rules.head?.map IngressRule.host).getD ""

def Ingress.firstPaths : List HTTPIngressPath :=
  (ing.spec.rules.head?.bind IngressRule.http).getD []

def httpProtocol : String := "HTTP"
def tlsPassthroughListenerName : String := "tls-passthrough"
def tlsPassthroughListenerProtocol : String := "TLS_PASSTHROUGH"

structure Listener where
  name : String
  protocol : String
  port : Int
  ipv4 : String := ""
  ipv6 : String := ""
  ssl : Bool := false

structure GlobalConfiguration where
  objectMeta : ObjectMeta
  listeners : List Listener

structure TransportServerListener where
  name : String
  protocol : String
deriving DecidableEq

structure TransportServerMatch where
  send : String := ""
  expect : String := ""
deriving DecidableEq

structure TransportServerHealthCheck where
  enabled : Bool := false
  timeout : String := ""
  jitter : String := ""
  port : Int := 0
  interval : String := ""
  passes : Int := 0
  fails : Int := 0
  matching : Option TransportServerMatch := none
deriving DecidableEq

structure TransportServerUpstream where
  name : String
  service : String
  port : Int
  failTimeout : String := ""
  maxFails : Option Int := none
  maxConns : Option Int := none
  healthCheck : Option TransportServerHealthCheck := none
  loadBalancingMethod : String := ""
  backup : String := ""
  backupPort : Option Nat := none
deriving DecidableEq

structure UpstreamParameters where
  udpRequests : Option Int := none
  udpResponses : Option Int := none
  connectTimeout : String := ""
  nextUpstream : Bool := false
  nextUpstreamTimeout : String := ""
  nextUpstreamTries : Int := 0
deriving DecidableEq

/-- The secret of `tls`, the timeout of `sessionParameters` and the upstream of `action` stand
for those one-field structures. -/
structure TransportServerSpec where
  ingressClass : String := ""
  tls : Option String := none
  listener : TransportServerListener
  serverSnippets : String := ""
  streamSnippets : String := ""
  host : String := ""
  upstreams : List TransportServerUpstream := []
  upstreamParameters : Option UpstreamParameters := none
  sessionParameters : Option String := none
  action : Option String := none
deriving DecidableEq

structure TransportServer where
  objectMeta : ObjectMeta
  spec : TransportServerSpec
deriving DecidableEq

end IngressController
