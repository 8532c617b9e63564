import Mathlib.Data.List.Sort
import IngressController.Generator.Policies
import IngressController.Generator.Routing
import IngressController.Library.Distinct

/-! # The configuration of a VirtualServer

The generator goes through the routes of a VirtualServer and then through the subroutes of its
VirtualServerRoutes. A route that refers to VirtualServerRoutes is not rendered; it leaves its
error pages, snippets and policies to the subroutes. Everything else is rendered in one way, which
depends on what was generated before only through numbers, registered locations and the policies
of the server. Health checks and warnings are not part of the model.
-/

namespace IngressController.Configs

open GoString Version2

/-! ## Inputs -/

structure VirtualServerEx where
  virtualServer : VirtualServer
  virtualServerRoutes : List VirtualServerRoute := []
  virtualServerSelectorRoutes : GoMap (List String) := ∅
  endpoints : GoMap (List String) := ∅
  externalNameSvcs : GoMap Unit := ∅
  policies : GoMap Policy := ∅
  secretRefs : GoMap SecretReference := ∅
  apResources : AppProtectPolicyResources := {}
  zoneSync : Bool := false

/-- The settings of the controller and the ConfigMap. `selectorText` is the text of a label
selector, `none` for an invalid one; for the other library functions see `PolicyOptions`. -/
structure VirtualServerConfigurator where
  isPlus : Bool := false
  isResolverConfigured : Bool := false
  isWildcardEnabled : Bool := false
  enableSnippets : Bool := false
  http2 : Bool := false
  locationSnippets : List String := []
  wallarm : Option Version2.Wallarm := none
  dynamicWeightChangesReload : Bool := false
  caBundlePath : String := ""
  ingressControllerReplicas : Nat := 1
  plmEnabled : Bool := false
  parseURL : String → Option URL
  lower : String → String
  sha256Hex : String → String
  isPrint : Char → Bool
  scaleRatelimit : String → Nat → String
  validateBundle : String → Option String
  selectorText : GoMap String → Option String
  order : IterOrder PolicyLoop String

def VirtualServerConfigurator.plain : VirtualServerConfigurator where
  parseURL _ := none
  lower := id
  sha256Hex := id
  isPrint _ := true
  scaleRatelimit rate _ := rate
  validateBundle path := some path
  selectorText _ := none
  order := .asGiven

/-! ## TLS -/

def pemFileNameForWildcardTLSSecret : String := "/etc/nginx/secrets/wildcard"

variable (vsc : VirtualServerConfigurator)

/-- The outer `none` is a nil secret reference, the inner one no TLS. -/
def generateSSLConfig (tls : Option TLS) (nspace : String)
    (secretRefs : GoMap SecretReference) : Option (Option SSL) :=
  match tls with
  | none => some none
  | some tls =>
    if tls.secret = "" then
      some (if vsc.isWildcardEnabled then some {
          http2 := vsc.http2
          certificate := pemFileNameForWildcardTLSSecret
          certificateKey := pemFileNameForWildcardTLSSecret
          rejectHandshake := false }
        else none)
    else do
      let ref ← secretRefs[nspace ++ "/" ++ tls.secret]?
      let rejectHandshake := isInvalidSecret ref .tls
      let name := if rejectHandshake then "" else ref.path
      some (some {
        http2 := vsc.http2
        certificate := name
        certificateKey := name
        rejectHandshake })

/-! ## Upstreams -/

def nginx502Server : String := "unix:/var/lib/nginx/nginx-502-server.sock"

/-- `labels.Set.String`. -/
def labelsText (labels : GoMap String) : String :=
  String.intercalate "," (labels.toList.map fun (k, v) => k ++ "=" ++ v)

def generateEndpointsKey (serviceNamespace serviceName : String)
    (subselector : Option (GoMap String)) (port : Nat) : String :=
  match subselector.filter (!·.isEmpty) with
  | some labels =>
    serviceNamespace ++ "/" ++ serviceName ++ "_" ++ labelsText labels ++ ":" ++ toString port
  | none => serviceNamespace ++ "/" ++ serviceName ++ ":" ++ toString port

def generateExternalNameSvcKey (nspace service : String) : String := nspace ++ "/" ++ service

variable (vsEx : VirtualServerEx)

def generateEndpointsForUpstream
    (nspace : String) (upstream : IngressController.Upstream) : List String :=
  let (serviceNamespace, serviceName) := parseServiceReference upstream.service nspace
  let endpoints := vsEx.endpoints[generateEndpointsKey serviceNamespace serviceName
    upstream.subselector upstream.port]?.getD []
  if !vsc.isPlus && endpoints = [] then [nginx502Server]
  else if vsEx.externalNameSvcs.contains (generateExternalNameSvcKey nspace upstream.service) &&
      !vsc.isResolverConfigured then []
  else endpoints

def generateBackupEndpointsForUpstream
    (nspace : String) (upstream : IngressController.Upstream) : List String :=
  match upstream.backupPort with
  | none => []
  | some port =>
    if upstream.backup = "" then []
    else if vsEx.externalNameSvcs.contains (generateExternalNameSvcKey nspace upstream.backup) &&
        !vsc.isResolverConfigured then []
    else
      vsEx.endpoints[generateEndpointsKey nspace upstream.backup upstream.subselector
        port]?.getD []

def sortAddresses (addresses : List String) : List String := addresses.insertionSort (· ≤ ·)

def generateUpstream
    (namer : UpstreamNamer) (upstream : IngressController.Upstream) : Version2.Upstream where
  name := namer.getNameForUpstream upstream.name
  servers := sortAddresses (generateEndpointsForUpstream vsc vsEx namer.nspace upstream)
  backupServers := sortAddresses (generateBackupEndpointsForUpstream vsc vsEx namer.nspace upstream)
  resolve :=
    vsEx.externalNameSvcs.contains (generateExternalNameSvcKey namer.nspace upstream.service)

/-! ## Contexts -/

/-- How a route or subroute is rendered: its policies and who refers to them, the upstreams its
actions name, and what it inherits where it has nothing of its own. -/
structure RouteContext where
  route : Route
  policyContext : PolicyContext
  policyRefs : List PolicyReference
  upstreamNamer : UpstreamNamer
  errorPages : ErrorPageDetails
  locSnippets : String
  addHeaderInherit : String
  isVSR : Bool
  vsrName : String
  vsrNamespace : String

/-- The locations of a rendered route: those for external authentication it was the first to need,
and those it is routed to. -/
structure LocationGroup where
  context : RouteContext
  policies : PoliciesCfg
  authLocations : List Location
  locations : List Location

/-- What routes leave to the subroutes of the VirtualServerRoutes they refer to, by their keys. -/
structure Inherited where
  errorPages : GoMap ErrorPageDetails := ∅
  locationSnippets : GoMap String := ∅
  addHeaderInherit : GoMap String := ∅
  policies : GoMap (List PolicyReference) := ∅

/-- What is generated so far. The locations are kept by group; the source has their
concatenation. -/
structure GeneratorState where
  maps : List Map := []
  upstreams : List Version2.Upstream := []
  crUpstreams : GoMap IngressController.Upstream := ∅
  limitReqZones : List LimitReqZone := []
  authJWTClaimSets : List AuthJWTClaimSet := []
  cacheZones : List CacheZone := []
  oidcProviders : List OIDCProvider := []
  specAuthLocations : List Location := []
  groups : List LocationGroup := []
  internalRedirectLocations : List InternalRedirectLocation := []
  returnLocations : List ReturnLocation := []
  splitClients : List SplitClient := []
  errorPageLocations : List ErrorPageLocation := []
  keyValZones : List KeyValZone := []
  keyVals : List KeyVal := []
  twoWaySplitClients : List TwoWaySplitClients := []
  matchesRoutes : Nat := 0
  inherited : Inherited := {}
  policies : PoliciesCfg := {}
  oidc : OidcState := {}
  generatedExternalAuthURLs : List String := []
  generatedOAuth2Location : Bool := false

/-- What stays fixed while the routes are rendered. -/
structure Generator where
  vsc : VirtualServerConfigurator
  vsEx : VirtualServerEx
  ssl : Option SSL
  specHasOIDC : Bool

namespace Generator

variable (g : Generator)

def policyOptions : PolicyOptions where
  tls := g.ssl.isSome
  zoneSync := g.vsEx.zoneSync
  secretRefs := g.vsEx.secretRefs
  apResources := g.vsEx.apResources
  defaultCABundle := g.vsc.caBundlePath
  replicas := g.vsc.ingressControllerReplicas
  plmEnabled := g.vsc.plmEnabled
  parseURL := g.vsc.parseURL
  lower := g.vsc.lower
  sha256Hex := g.vsc.sha256Hex
  isPrint := g.vsc.isPrint
  scaleRatelimit := g.vsc.scaleRatelimit
  validateBundle := g.vsc.validateBundle
  order := g.vsc.order

def variableNamer : VariableNamer := newVSVariableNamer g.vsEx.virtualServer

def vsOwner : PolicyOwnerDetails where
  ownerName := g.vsEx.virtualServer.objectMeta.name.val
  ownerNamespace := g.vsEx.virtualServer.objectMeta.nspace.val
  parentNamespace := g.vsEx.virtualServer.objectMeta.nspace.val
  parentName := g.vsEx.virtualServer.objectMeta.name.val
  parentType := "vs"

/-- A VirtualServerRoute as the owner; the parent is the VirtualServer. -/
def vsrOwner (vsr : VirtualServerRoute) : PolicyOwnerDetails :=
  { g.vsOwner with
    ownerName := vsr.objectMeta.name.val
    ownerNamespace := vsr.objectMeta.nspace.val }

variable (namer : UpstreamNamer)

def addUpstream (st : GeneratorState) (u : IngressController.Upstream) : GeneratorState :=
  { st with
    upstreams := st.upstreams ++ [generateUpstream g.vsc g.vsEx namer u]
    crUpstreams := st.crUpstreams.insert (namer.getNameForUpstream u.name) u }

/-! ## External authentication -/

variable (auth : Version2.ExternalAuth)

/-- A port that is not a number of 16 bits is left out. -/
def getExAuthServicePort : Nat :=
  match auth.servicePorts.head?.filter fun port => 0 < port && port ≤ 65535 with
  | some port => port.toNat
  | none =>
    if auth.uri.port ≠ "" then
      ((parseUint auth.uri.port.toList).filter (· < 2 ^ 16)).getD 0
    else if auth.sslEnabled then 443
    else 80

def verifyUpstream (loc : Location) : Location :=
  if auth.sslVerify then { loc with
    proxySSLVerify := true
    proxySSLVerifyDepth := auth.sslVerifyDepth
    proxySSLTrustedCertificate := auth.sslTrustedCert
    proxySSLName := auth.sniName }
  else loc

def generateExternalAuthLocation (upstreamName : String) : Location :=
  verifyUpstream auth {
    path := quote g.vsc.isPrint auth.uri.internalPath
    internal := true
    snippets := generateSnippets true auth.snippets []
    proxyPass := quote g.vsc.isPrint
      (generateProxyPassProtocol auth.sslEnabled ++ "://" ++ upstreamName ++ auth.uri.path)
    proxyPassRequestHeaders := true
    proxyPassRequestBody := "off"
    proxySetHeaders := [
      { name := "Content-Length", value := "0" },
      { name := "Host", value := "$host" },
      { name := "X-Scheme", value := "$scheme" }]
    serviceName := (parseServiceReference auth.uri.service "").2 }

def generateExternalAuthOAuth2Location (upstreamName : String) : Location :=
  verifyUpstream auth {
    path := quote g.vsc.isPrint auth.signinRedirectBasePath
    authRequestOff := true
    proxyPass := quote g.vsc.isPrint
      (generateProxyPassProtocol auth.sslEnabled ++ "://" ++ upstreamName)
    proxySetHeaders := [
      { name := "X-Auth-Request-Redirect", value := "$request_uri" },
      { name := "Host", value := "$host" },
      { name := "X-Scheme", value := "$scheme" }]
    proxyPassRequestHeaders := true
    serviceName := auth.uri.upstream }

variable (st : GeneratorState)

def externalAuthLocations : List Location :=
  let upstreamName := namer.getNameForUpstream auth.uri.upstream
  if auth.uri.internalPath ∈ st.generatedExternalAuthURLs then []
  else g.generateExternalAuthLocation auth upstreamName ::
    if auth.signinURL ≠ "" && !st.generatedOAuth2Location then
      [g.generateExternalAuthOAuth2Location auth upstreamName]
    else []

/-- The upstream for such an authentication. A second policy with the same internal path adds
nothing. -/
def addExternalAuth : GeneratorState :=
  if auth.uri.internalPath ∈ st.generatedExternalAuthURLs then st
  else
    let st := g.addUpstream namer st {
      name := auth.uri.upstream
      service := auth.uri.service
      port := getExAuthServicePort auth }
    { st with
      generatedExternalAuthURLs := auth.uri.internalPath ::
        (if auth.signinURL ≠ "" then [auth.signinURL] else []) ++ st.generatedExternalAuthURLs
      generatedOAuth2Location := st.generatedOAuth2Location || auth.signinURL ≠ "" }

/-! ## Policies -/

def addCacheZone (zones : List CacheZone) (cache : Option Version2.Cache) : List CacheZone :=
  match cache with
  | none => zones
  | some cache =>
    if zones.any (·.name = cache.zoneName) then zones
    else zones ++ [{
      name := cache.zoneName
      size := generateString cache.spec.cacheZoneSize "10m"
      path := "/var/cache/nginx/" ++ cache.zoneName
      cache }]

/-- Headers of the VirtualServer hold for contexts without their own, its OpenID Connect policy for
contexts without any. -/
def inheritFromServer (specHasOIDC : Bool) (server cfg : PoliciesCfg) : PoliciesCfg :=
  { cfg with
    corsHeaders := if cfg.corsHeaders = [] then server.corsHeaders else cfg.corsHeaders
    oidc :=
      if cfg.oidc.isNone && specHasOIDC && cfg.oidcProvider.isNone then server.oidc else cfg.oidc }

def insertIfAbsent {α : Type} (m : GoMap α) (k : String) (a : α) : GoMap α :=
  if m.contains k then m else m.insert k a

def serverPolicies (server cfg : PoliciesCfg) : PoliciesCfg :=
  { server with
    oidc := cfg.oidc.or server.oidc
    jwtAuth := match cfg.jwtAuth.jwksEnabled, cfg.jwtAuth.auth with
      | true, some auth => { server.jwtAuth with
          jwksEnabled := true
          list := insertIfAbsent server.jwtAuth.list auth.key auth }
      | _, _ => server.jwtAuth
    apiKey := match cfg.apiKey.enabled, cfg.apiKey.key with
      | true, some key => { server.apiKey with
          enabled := true
          clientMap := insertIfAbsent server.apiKey.clientMap key.mapName cfg.apiKey.clients }
      | _, _ => server.apiKey }

variable (cfg : PoliciesCfg)

def addPolicyParts (st : GeneratorState) : GeneratorState :=
  { st with
    maps := st.maps ++ cfg.rateLimit.groupMaps ++ cfg.rateLimit.policyGroupMaps ++
      cfg.corsMap.toList
    limitReqZones := st.limitReqZones ++ cfg.rateLimit.zones
    authJWTClaimSets := st.authJWTClaimSets ++ cfg.rateLimit.authJWTClaimSets
    oidcProviders := st.oidcProviders ++ cfg.oidcProvider.toList
    cacheZones := addCacheZone st.cacheZones cfg.cache }

/-- Later contexts reuse the OpenID Connect policy of this one. -/
def oidcAfter (oidc : OidcState) (cfg : PoliciesCfg) (locations : OidcLocations) : OidcState :=
  match cfg.oidc with
  | some config => { policyName := config.policyName, config := some config, locations }
  | none => { oidc with locations }

/-- `%q` without the quotes. -/
def escapeForNGINXQuotedString (value : String) : String :=
  String.ofList ((quote g.vsc.isPrint value).toList.tail.dropLast)

def errorPageResponseCodeInherit : Int := -1

/-- A rejected request is sent to the sign-in URL. -/
def signinErrorPages : List Version2.ErrorPage :=
  match cfg.externalAuth.filter (·.signinURL ≠ "") with
  | some auth => [{
      name := g.escapeForNGINXQuotedString auth.signinURL
      codes := "401"
      responseCode := errorPageResponseCodeInherit }]
  | none => []

/-- The settings of the policies overwrite what the location had. -/
def addPoliciesCfgToLocation (loc : Location) : Location :=
  { loc with
    allow := cfg.allow
    deny := cfg.deny
    limitReqOptions := cfg.rateLimit.options
    limitReqs := cfg.rateLimit.reqs
    jwtAuth := cfg.jwtAuth.auth
    externalAuth := cfg.externalAuth
    basicAuth := cfg.basicAuth
    egressMTLS := cfg.egressMTLS
    oidcProviderName := (cfg.oidcProvider.map OIDCProvider.name).getD loc.oidcProviderName
    oidc := loc.oidc || (cfg.oidcProvider.isNone && cfg.oidc.isSome)
    waf := cfg.waf
    wallarm := cfg.wallarm
    apiKey := cfg.apiKey.key
    cache := cfg.cache
    policiesErrorReturn := cfg.errorReturn
    errorPages := loc.errorPages ++ g.signinErrorPages cfg
    proxyInterceptErrors := loc.proxyInterceptErrors || g.signinErrorPages cfg ≠ []
    addHeaders := loc.addHeaders ++ cfg.corsHeaders
    corsEnabled := loc.corsEnabled || cfg.corsHeaders ≠ [] }

/-! ## Rendering -/

variable (ctx : RouteContext)

def locationParams (st : GeneratorState) : LocationParams where
  upstreamNamer := ctx.upstreamNamer
  crUpstreams := st.crUpstreams
  errorPages := ctx.errorPages
  originalPath := ctx.route.path
  locSnippets := ctx.locSnippets
  enableSnippets := g.vsc.enableSnippets
  defaultSnippets := g.vsc.locationSnippets
  isVSR := ctx.isVSR
  vsrName := ctx.vsrName
  vsrNamespace := ctx.vsrNamespace
  wallarm := g.vsc.wallarm

def routingIndex : RoutingIndex where
  matchesRoutes := st.matchesRoutes
  splitClients := st.splitClients.length
  returnLocations := st.returnLocations.length

def groupOf (policies : PoliciesCfg) (authLocations : List Location)
    (routing : RoutingCfg) : LocationGroup where
  context := ctx
  policies
  authLocations
  locations := routing.locations.map fun loc =>
    { g.addPoliciesCfgToLocation policies loc with addHeaderInherit := ctx.addHeaderInherit }

def addRouting (routing : RoutingCfg) (group : LocationGroup)
    (st : GeneratorState) : GeneratorState :=
  { st with
    maps := st.maps ++ routing.maps
    groups := st.groups ++ [group]
    internalRedirectLocations :=
      st.internalRedirectLocations ++ routing.internalRedirectLocation.toList
    returnLocations := st.returnLocations ++ routing.returnLocations
    splitClients := st.splitClients ++ routing.splitClients
    keyValZones := st.keyValZones ++ routing.keyValZones
    keyVals := st.keyVals ++ routing.keyVals
    twoWaySplitClients := st.twoWaySplitClients ++ routing.twoWaySplitClients
    matchesRoutes := if ctx.route.routeMatches ≠ [] then st.matchesRoutes + 1
      else st.matchesRoutes }

/-- What the policies of a context change before its route is generated. -/
def addContextPolicies (locations : OidcLocations) (st : GeneratorState) : GeneratorState :=
  let st := { st with
    oidc := oidcAfter st.oidc cfg locations
    policies := serverPolicies st.policies cfg }
  let st := match cfg.externalAuth with
    | some auth => g.addExternalAuth namer auth st
    | none => st
  addPolicyParts cfg st

def contextAuthLocations (st : GeneratorState) : List Location :=
  match cfg.externalAuth with
  | some auth => g.externalAuthLocations namer auth st
  | none => []

def renderRoute : Option GeneratorState := do
  let (cfg, locations) ← generatePolicies g.policyOptions g.vsEx.policies st.oidc
    ctx.policyContext ctx.policyRefs
  let authLocations := g.contextAuthLocations ctx.upstreamNamer cfg st
  let policies := inheritFromServer g.specHasOIDC st.policies cfg
  let st := g.addContextPolicies ctx.upstreamNamer cfg locations st
  let routing ← generateRouting (g.locationParams ctx st) g.variableNamer
    g.vsc.dynamicWeightChangesReload (routingIndex st) ctx.route
  some (addRouting ctx routing (g.groupOf ctx policies authLocations routing) st)

/-! ## Routes of the VirtualServer -/

/-- A route leaves what it has; what it does not have leaves earlier entries alone. -/
def recordInherited (keys : List String) (r : Route) (errorPages : ErrorPageDetails)
    (inherited : Inherited) : Inherited where
  errorPages :=
    if errorPages.pages = [] then inherited.errorPages
    else keys.foldl (fun m key => m.insert key errorPages) inherited.errorPages
  locationSnippets :=
    if r.locationSnippets = "" then inherited.locationSnippets
    else keys.foldl (fun m key => m.insert key r.locationSnippets) inherited.locationSnippets
  addHeaderInherit :=
    if r.addHeaderInherit = "" then inherited.addHeaderInherit
    else keys.foldl (fun m key => m.insert key r.addHeaderInherit) inherited.addHeaderInherit
  policies :=
    if r.policies = [] then inherited.policies
    else keys.foldl (fun m key => m.insert key r.policies) inherited.policies

variable (r : Route)

/-- The error pages of a route, numbered by the locations of those before. -/
def errorPageDetails (index : Nat) : ErrorPageDetails where
  pages := r.errorPages.getD []
  index

def addErrorPages (errorPages : ErrorPageDetails) (st : GeneratorState) :
    Option GeneratorState := do
  let locations ← generateErrorPageLocations errorPages.index errorPages.pages
  some { st with errorPageLocations := st.errorPageLocations ++ locations }

/-- The VirtualServerRoutes a route refers to; `none` for a route that is rendered itself. An
invalid selector refers to none. -/
def delegatedKeys : Option (List String) :=
  if r.route ≠ "" then some [vsrKeyOf g.vsEx.virtualServer.objectMeta.nspace r.route]
  else r.routeSelector.map fun selector =>
    match g.vsc.selectorText selector.matchLabels with
    | some text => (g.vsEx.virtualServerSelectorRoutes[text]?).getD []
    | none => []

def vsRouteContext (errorPages : ErrorPageDetails) : RouteContext where
  route := r
  policyContext := { owner := g.vsOwner, context := routeContext, path := r.path }
  policyRefs := r.policies
  upstreamNamer := newUpstreamNamerForVirtualServer g.vsEx.virtualServer
  errorPages
  locSnippets := r.locationSnippets
  addHeaderInherit := r.addHeaderInherit
  isVSR := false
  vsrName := ""
  vsrNamespace := ""

def vsRouteStep : Option GeneratorState := do
  let errorPages := errorPageDetails r st.errorPageLocations.length
  let st ← addErrorPages errorPages st
  match g.delegatedKeys r with
  | some keys => some { st with inherited := recordInherited keys r errorPages st.inherited }
  | none => g.renderRoute st (g.vsRouteContext r errorPages)

/-! ## Subroutes -/

variable (vsr : VirtualServerRoute)

/-- A subroute without policies of its own is rendered with those of the route and on behalf of the
VirtualServer. -/
def subrouteContext (r : Route) (own : ErrorPageDetails) (inherited : Inherited) : RouteContext :=
  let key := getResourceKey vsr.objectMeta
  { route := r
    policyContext :=
      if r.policies = [] then { owner := g.vsOwner, context := routeContext, path := r.path }
      else { owner := g.vsrOwner vsr, context := subRouteContext, path := r.path }
    policyRefs := if r.policies = [] then (inherited.policies[key]?).getD [] else r.policies
    upstreamNamer := newUpstreamNamerForVirtualServerRoute g.vsEx.virtualServer vsr
    errorPages := if r.errorPages.isNone then (inherited.errorPages[key]?).getD own else own
    locSnippets :=
      if r.locationSnippets = "" then (inherited.locationSnippets[key]?).getD ""
      else r.locationSnippets
    addHeaderInherit :=
      if r.addHeaderInherit = "" then (inherited.addHeaderInherit[key]?).getD ""
      else r.addHeaderInherit
    isVSR := true
    vsrName := vsr.objectMeta.name.val
    vsrNamespace := vsr.objectMeta.nspace.val }

def subrouteStep (st : GeneratorState) (r : Route) : Option GeneratorState := do
  let errorPages := errorPageDetails r st.errorPageLocations.length
  let st ← addErrorPages errorPages st
  g.renderRoute st (g.subrouteContext vsr r errorPages st.inherited)

def vsrStep : Option GeneratorState :=
  vsr.spec.subroutes.foldlM (g.subrouteStep vsr) st

/-! ## The VirtualServer -/

/-- All upstreams are known before the first route is rendered. -/
def addUpstreams : GeneratorState :=
  let vs := g.vsEx.virtualServer
  let st := vs.spec.upstreams.foldl (g.addUpstream (newUpstreamNamerForVirtualServer vs)) st
  g.vsEx.virtualServerRoutes.foldl (fun st vsr =>
    vsr.spec.upstreams.foldl
      (g.addUpstream (newUpstreamNamerForVirtualServerRoute vs vsr)) st) st

/-- The state before the first route, from the policies of the VirtualServer itself. -/
def initialState (locations : OidcLocations) : GeneratorState :=
  let namer := newUpstreamNamerForVirtualServer g.vsEx.virtualServer
  let st := addPolicyParts cfg {
    policies := serverPolicies cfg cfg
    oidc := oidcAfter {} cfg locations }
  let st := g.addUpstreams st
  match cfg.externalAuth with
  | some auth =>
    { g.addExternalAuth namer auth st with
      specAuthLocations := g.externalAuthLocations namer auth st }
  | none => st

def specPolicyContext : PolicyContext where
  owner := g.vsOwner
  context := specContext
  path := "/"

end Generator

def startGenerator : Option (Generator × GeneratorState) := do
  let vs := vsEx.virtualServer
  let ssl ← generateSSLConfig vsc vs.spec.tls vs.objectMeta.nspace.val vsEx.secretRefs
  let g : Generator := { vsc, vsEx, ssl, specHasOIDC := false }
  let (cfg, locations) ← generatePolicies g.policyOptions vsEx.policies {} g.specPolicyContext
    vs.spec.policies
  let g := { g with specHasOIDC := cfg.oidc.isSome }
  some (g, g.initialState cfg locations)

def generateVirtualServer : Option (Generator × GeneratorState) := do
  let (g, st) ← startGenerator vsc vsEx
  let st ← vsEx.virtualServer.spec.routes.foldlM g.vsRouteStep st
  let st ← vsEx.virtualServerRoutes.foldlM g.vsrStep st
  some (g, st)

/-! ## The configuration -/

def generateAPIKeyClientMap (mapName : String) (clients : List ApiKeyClient) : Map where
  source := "$apikey_auth_token"
  variableName := "$" ++ mapName
  parameters := { value := "default", result := "\"\"" } :: clients.map fun client => {
    value := "\"" ++ client.hashedKey ++ "\""
    result := "\"" ++ client.clientID ++ "\"" }

def removeDuplicateMaps (maps : List Map) : List Map :=
  Distinct.byKey (fun m => m.source ++ m.variableName) maps

def removeDuplicateLimitReqZones (zones : List LimitReqZone) : List LimitReqZone :=
  Distinct.byKey LimitReqZone.zoneName zones

def removeDuplicateAuthJWTClaimSets (sets : List AuthJWTClaimSet) : List AuthJWTClaimSet :=
  Distinct.byKey AuthJWTClaimSet.variableName sets

/-- A post-logout location is kept for the first provider that has it. -/
def dropPostLogout : List String → List OIDCProvider → List OIDCProvider
  | _, [] => []
  | paths, provider :: providers =>
    match provider.postLogoutLocation with
    | none => provider :: dropPostLogout paths providers
    | some location =>
      if location.path ∈ paths then
        { provider with postLogoutLocation := none } :: dropPostLogout paths providers
      else provider :: dropPostLogout (location.path :: paths) providers

def removeDuplicateOIDCProviders (providers : List OIDCProvider) : List OIDCProvider :=
  dropPostLogout [] (Distinct.byKey OIDCProvider.name providers)

def oidcNativeSessionZoneSize : String := "10m"

def oidcNativeSessionSyncDefaultTimeout : String := "8h"

def sessionZones (providers : List OIDCProvider) : List KeyValZone :=
  (providers.filter (·.sessionStore ≠ "")).map fun p => {
    name := p.sessionStore
    size := oidcNativeSessionZoneSize
    sync := p.sync
    timeout := if p.sync then
        generateString p.spec.sessionTimeout oidcNativeSessionSyncDefaultTimeout
      else p.spec.sessionTimeout }

/-- A location with headers of its own does not inherit those of the server. -/
def addHSTSToLocation (hsts : Option Version2.HSTS) (loc : Location) : Location :=
  if hsts.isSome && loc.addHeaders ≠ [] && loc.addHeaderInherit ≠ "on" &&
      loc.addHeaderInherit ≠ "merge" then
    { loc with hsts }
  else loc

namespace GeneratorState

variable (st : GeneratorState)

def locations : List Location :=
  st.specAuthLocations ++ st.groups.flatMap fun group => group.authLocations ++ group.locations

/-- The maps of the keys of clients follow all others, in any order. -/
def clientMaps (order : IterOrder PolicyLoop String) : List Map :=
  (order.visit .clientMaps st.policies.apiKey.clientMap.keys).filterMap fun mapName =>
    (st.policies.apiKey.clientMap[mapName]?).map (generateAPIKeyClientMap mapName)

end GeneratorState

namespace Generator

variable (g : Generator) (st : GeneratorState)

def serverOf : Server where
  serverName := g.vsEx.virtualServer.spec.host
  ssl := g.ssl
  internalRedirectLocations := st.internalRedirectLocations
  locations := st.locations.map (addHSTSToLocation st.policies.hsts)
  returnLocations := st.returnLocations
  errorPageLocations := st.errorPageLocations
  allow := st.policies.allow
  deny := st.policies.deny
  limitReqOptions := st.policies.rateLimit.options
  limitReqs := st.policies.rateLimit.reqs
  jwtAuth := st.policies.jwtAuth.auth
  externalAuth := st.policies.externalAuth
  errorPages := g.signinErrorPages st.policies
  basicAuth := st.policies.basicAuth
  jwtAuthList := st.policies.jwtAuth.list
  jwksAuthEnabled := st.policies.jwtAuth.jwksEnabled
  ingressMTLS := st.policies.ingressMTLS
  egressMTLS := st.policies.egressMTLS
  apiKey := st.policies.apiKey.key
  apiKeyEnabled := st.policies.apiKey.enabled
  oidc := st.policies.oidc
  oidcProviderName := (st.policies.oidcProvider.map OIDCProvider.name).getD ""
  waf := st.policies.waf
  cache := st.policies.cache
  hsts := st.policies.hsts
  policiesErrorReturn := st.policies.errorReturn
  vsNamespace := g.vsEx.virtualServer.objectMeta.nspace.val
  vsName := g.vsEx.virtualServer.objectMeta.name.val

def configOf : VirtualServerConfig where
  upstreams := st.upstreams.insertionSort fun u u' => u.name ≤ u'.name
  maps := removeDuplicateMaps (st.maps ++ st.clientMaps g.vsc.order)
  limitReqZones := removeDuplicateLimitReqZones st.limitReqZones
  authJWTClaimSets := removeDuplicateAuthJWTClaimSets st.authJWTClaimSets
  oidcProviders := removeDuplicateOIDCProviders st.oidcProviders
  cacheZones := st.cacheZones
  splitClients := st.splitClients
  keyValZones :=
    st.keyValZones ++ sessionZones (removeDuplicateOIDCProviders st.oidcProviders)
  keyVals := st.keyVals
  twoWaySplitClients := st.twoWaySplitClients
  server := g.serverOf st

end Generator

/-- `none` is a nil pointer that is dereferenced. -/
def generateVirtualServerConfig : Option VirtualServerConfig :=
  (generateVirtualServer vsc vsEx).map fun (g, st) => g.configOf st

end IngressController.Configs
