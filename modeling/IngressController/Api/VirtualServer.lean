import IngressController.Api.Meta
import IngressController.Library.GoString

/-! # VirtualServer and VirtualServerRoute objects

The fields of the custom resources the validator, the configuration and the
generator read.
-/

namespace IngressController

structure PolicyReference where
  name : String
  nspace : String := ""
deriving DecidableEq

structure Header where
  name : String
  value : String := ""
deriving DecidableEq

structure UpstreamBuffers where
  number : Int := 0
  size : String := ""
deriving DecidableEq

structure HealthCheck where
  enable : Bool := false
  path : String := ""
  interval : String := ""
  jitter : String := ""
  fails : Int := 0
  passes : Int := 0
  port : Int := 0
  tlsEnable : Option Bool := none
  connectTimeout : String := ""
  readTimeout : String := ""
  sendTimeout : String := ""
  headers : List Header := []
  statusMatch : String := ""
  grpcStatus : Option Int := none
  grpcService : String := ""
  mandatory : Bool := false
  persistent : Bool := false
  keepaliveTime : String := ""
deriving DecidableEq

structure UpstreamQueue where
  size : Int := 0
  timeout : String := ""
deriving DecidableEq

structure SessionCookie where
  enable : Bool := false
  name : String := ""
  path : String := ""
  expires : String := ""
  domain : String := ""
  httpOnly : Bool := false
  secure : Bool := false
  sameSite : String := ""
deriving DecidableEq

structure Upstream where
  name : String
  service : String
  subselector : Option (GoMap String) := none
  port : Nat
  lbMethod : String := ""
  failTimeout : String := ""
  maxFails : Option Int := none
  maxConns : Option Int := none
  keepalive : Option Int := none
  proxyConnectTimeout : String := ""
  proxyReadTimeout : String := ""
  proxySendTimeout : String := ""
  proxyNextUpstream : String := ""
  proxyNextUpstreamTimeout : String := ""
  proxyNextUpstreamTries : Int := 0
  proxyBuffering : Option Bool := none
  proxyBuffers : Option UpstreamBuffers := none
  proxyBufferSize : String := ""
  proxyBusyBuffersSize : String := ""
  clientMaxBodySize : String := ""
  clientBodyBufferSize : String := ""
  tlsEnable : Bool := false
  healthCheck : Option HealthCheck := none
  slowStart : String := ""
  queue : Option UpstreamQueue := none
  sessionCookie : Option SessionCookie := none
  useClusterIP : Bool := false
  ntlm : Bool := false
  type : String := ""
  backup : String := ""
  backupPort : Option Nat := none
deriving DecidableEq

structure ActionRedirect where
  url : String := ""
  code : Int := 0
deriving DecidableEq

structure ActionReturn where
  code : Int := 0
  type : String := ""
  body : String := ""
  headers : List Header := []
deriving DecidableEq

structure ProxyRequestHeaders where
  pass : Option Bool := none
  set : List Header := []
deriving DecidableEq

structure AddHeader where
  header : Header
  always : Bool := false
deriving DecidableEq

structure ProxyResponseHeaders where
  hide : List String := []
  pass : List String := []
  ignore : List String := []
  add : List AddHeader := []
deriving DecidableEq

structure ActionProxy where
  upstream : String
  rewritePath : String := ""
  requestHeaders : Option ProxyRequestHeaders := none
  responseHeaders : Option ProxyResponseHeaders := none
deriving DecidableEq

/-- `ret` is the source's `Return`. -/
structure Action where
  pass : String := ""
  redirect : Option ActionRedirect := none
  ret : Option ActionReturn := none
  proxy : Option ActionProxy := none
deriving DecidableEq

structure Split where
  weight : Int
  action : Option Action
deriving DecidableEq

structure Condition where
  header : String := ""
  cookie : String := ""
  argument : String := ""
  variableName : String := ""
  value : String := ""
deriving DecidableEq

structure Match where
  conditions : List Condition
  action : Option Action := none
  splits : List Split := []
deriving DecidableEq

structure ErrorPage where
  codes : List Int
  ret : Option ActionReturn := none
  redirect : Option ActionRedirect := none
deriving DecidableEq

/-- The match labels of a route selector; match expressions are never read. -/
structure RouteSelector where
  matchLabels : GoMap String
deriving DecidableEq

/-- `routeMatches` is the source's `Matches`. A subroute without error pages inherits them, one with
an empty list does not. -/
structure Route where
  path : String
  policies : List PolicyReference := []
  route : String := ""
  routeSelector : Option RouteSelector := none
  action : Option Action := none
  splits : List Split := []
  routeMatches : List Match := []
  errorPages : Option (List ErrorPage) := none
  locationSnippets : String := ""
  addHeaderInherit : String := ""
  dos : String := ""
deriving DecidableEq

structure VirtualServerListener where
  http : String := ""
  https : String := ""
deriving DecidableEq

structure TLSRedirect where
  enable : Bool := false
  code : Option Int := none
  basedOn : String := ""
deriving DecidableEq

structure CertManager where
  clusterIssuer : String := ""
  issuer : String := ""
  issuerKind : String := ""
  issuerGroup : String := ""
  commonName : String := ""
  duration : String := ""
  renewBefore : String := ""
  usages : String := ""
  issueTempCert : Bool := false
deriving DecidableEq

structure TLS where
  secret : String := ""
  redirect : Option TLSRedirect := none
  certManager : Option CertManager := none
deriving DecidableEq

structure ProviderSpecificProperty where
  name : String := ""
  value : String := ""
deriving DecidableEq

structure ExternalDNS where
  enable : Bool := false
  recordType : String := ""
  recordTTL : Int := 0
  labels : GoMap String := ∅
  providerSpecific : List ProviderSpecificProperty := []
deriving DecidableEq

structure VirtualServerSpec where
  ingressClass : String := ""
  host : String
  listener : Option VirtualServerListener := none
  tls : Option TLS := none
  gunzip : Bool := false
  policies : List PolicyReference := []
  upstreams : List Upstream := []
  routes : List Route := []
  httpSnippets : String := ""
  serverSnippets : String := ""
  addHeaderInherit : String := ""
  dos : String := ""
  externalDNS : ExternalDNS := {}
deriving DecidableEq

structure VirtualServer where
  objectMeta : ObjectMeta
  spec : VirtualServerSpec
deriving DecidableEq

def hasNamespace (name : String) : Bool := GoString.contains name '/'

/-- A reference without a namespace means the namespace of the VirtualServer. -/
def vsrKeyOf (vsNamespace : ResourceName) (route : String) : String :=
  if hasNamespace route then route else vsNamespace.val ++ "/" ++ route

structure VirtualServerRouteSpec where
  ingressClass : String := ""
  host : String
  upstreams : List Upstream := []
  subroutes : List Route := []
deriving DecidableEq

structure VirtualServerRoute where
  objectMeta : ObjectMeta
  spec : VirtualServerRouteSpec
deriving DecidableEq

/-- A route that delegates renders nothing itself. -/
def rendersLocations (r : Route) : Bool := r.route = "" && r.routeSelector.isNone

/-- The subroutes with their VirtualServerRoutes in the order they are visited. -/
def subroutesOf (vsrs : List VirtualServerRoute) : List (VirtualServerRoute × Route) :=
  vsrs.flatMap fun vsr => vsr.spec.subroutes.map (vsr, ·)

theorem mem_subroutesOf {vsrs : List VirtualServerRoute} {e : VirtualServerRoute × Route} :
    e ∈ subroutesOf vsrs ↔ e.1 ∈ vsrs ∧ e.2 ∈ e.1.spec.subroutes := by
  obtain ⟨vsr, r⟩ := e
  simp only [subroutesOf, List.mem_flatMap, List.mem_map, Prod.mk.injEq]
  constructor
  · rintro ⟨vsr', hvsr', r', hr', rfl, rfl⟩
    exact ⟨hvsr', hr'⟩
  · rintro ⟨hvsr, hr⟩
    exact ⟨vsr, hvsr, r, hr, rfl, rfl⟩

end IngressController
