import IngressController.Generator.Names

/-! # Locations

The location an action becomes, with its error pages. A nil pointer that is dereferenced is
`none`.
-/

namespace IngressController.Configs

open GoString Version2

def parseResourceReference (resourceRef defaultNamespace : String) : String × String :=
  match split resourceRef '/' with
  | [nspace, name] => (nspace, name)
  | _ => (defaultNamespace, resourceRef)

def parseServiceReference (serviceRef defaultNamespace : String) : String × String :=
  parseResourceReference serviceRef defaultNamespace

variable (path : String)

/-- A space separates the modifier from the path; a regular expression is quoted. -/
def generatePath : String :=
  if hasPrefix path "^~" then "^~ " ++ locationOf path "^~"
  else if hasPrefix path "~*" then "~* \"" ++ locationOf path "~*" ++ "\""
  else if hasPrefix path "~" then "~ \"" ++ locationOf path "~" ++ "\""
  else if hasPrefix path "=" then "= " ++ locationOf path "="
  else path

def generateSnippets (enableSnippets : Bool) (snippet : String) (defaultSnippets : List String) :
    List String :=
  if !enableSnippets || snippet = "" then defaultSnippets else split snippet '\n'

def isGRPC (protocolType : String) : Bool := protocolType = "grpc"

def generateProxyPassProtocol (enableTLS : Bool) : String := if enableTLS then "https" else "http"

def generateGRPCPassProtocol (enableTLS : Bool) : String := if enableTLS then "grpcs" else "grpc"

def generateGRPCPass (grpcEnabled tlsEnabled : Bool) (upstreamName : String) : String :=
  if grpcEnabled then generateGRPCPassProtocol tlsEnabled ++ "://" ++ upstreamName else ""

def hasRewritePath : Option ActionProxy → Bool
  | some proxy => proxy.rewritePath ≠ ""
  | none => false

def generateProxyPass (tlsEnabled : Bool) (upstreamName : String) (internal : Bool)
    (proxy : Option ActionProxy) : String :=
  let proxyPass := generateProxyPassProtocol tlsEnabled ++ "://" ++ upstreamName
  if internal && !hasRewritePath proxy then proxyPass ++ "$request_uri" else proxyPass

def generateProxyPassRewrite (proxy : Option ActionProxy) (internal : Bool) : String :=
  match proxy with
  | some proxy =>
    if !internal && (hasPrefix path "/" || hasPrefix path "=" || hasPrefix path "^~") then
      proxy.rewritePath
    else ""
  | none => ""

def generateRewrites (proxy : Option ActionProxy) (internal : Bool)
    (originalPath : String) (grpcEnabled : Bool) : List String :=
  match proxy.filter (·.rewritePath ≠ "") with
  | none => if grpcEnabled && internal then ["^ $request_uri break"] else []
  | some proxy =>
    let path := if originalPath ≠ "" then originalPath else path
    let trimmedPath := String.ofList (trimSpace
      (trimPrefix (String.ofList (trimPrefix path "~")) "*"))
    -- an internal location first recovers the URI of the request without its arguments
    (if internal then ["^ $request_uri_no_args"] else []) ++
      (if hasPrefix path "~" then
        ["\"^" ++ trimmedPath ++ "\" \"" ++ proxy.rewritePath ++ "\" break"]
      else if internal then
        ["\"^" ++ trimmedPath ++ "(.*)$\" \"" ++ proxy.rewritePath ++ "$1\" break"]
      else [])

def generateProxySSLName (svcName ns : String) : String := svcName ++ "." ++ ns ++ ".svc"

variable (proxy : Option ActionProxy)

/-- The host is passed on unless a header of the route sets it. -/
def generateProxySetHeaders : List Header :=
  let headers := ((proxy.bind ActionProxy.requestHeaders).map ProxyRequestHeaders.set).getD []
  if headers.any fun h => toLower h.name.toList = "host".toList then headers
  else headers ++ [{ name := "Host", value := "$host" }]

def generateProxyPassRequestHeaders : Bool :=
  ((proxy.bind ActionProxy.requestHeaders).bind ProxyRequestHeaders.pass).getD true

def responseHeadersOf : ProxyResponseHeaders :=
  (proxy.bind ActionProxy.responseHeaders).getD {}

def generateProxyHideHeaders : List String :=
  (responseHeadersOf proxy).hide

def generateProxyPassHeaders : List String :=
  (responseHeadersOf proxy).pass

def generateProxyIgnoreHeaders : String :=
  String.intercalate " " (responseHeadersOf proxy).ignore

def generateProxyAddHeaders : List AddHeader :=
  (responseHeadersOf proxy).add

/-- The error pages of a location and the index in the names of their locations. -/
structure ErrorPageDetails where
  pages : List ErrorPage
  index : Nat

def generateErrorPageCodes (codes : List Int) : String :=
  String.intercalate " " (codes.map toString)

variable (errPageIndex : Nat)

def generateErrorPage (e : ErrorPage) (i : Nat) : Option Version2.ErrorPage :=
  match e.redirect with
  | some redirect => some {
      name := redirect.url
      codes := generateErrorPageCodes e.codes
      responseCode := if redirect.code ≠ 0 then redirect.code else 301 }
  | none => do
      let ret ← e.ret
      some {
        name := generateErrorPageName errPageIndex i
        codes := generateErrorPageCodes e.codes
        responseCode := ret.code }

def generateErrorPages (errorPages : List ErrorPage) : Option (List Version2.ErrorPage) :=
  errorPages.zipIdx.mapM fun (e, i) => generateErrorPage errPageIndex e i

/-- A redirect needs no location of its own. -/
def generateErrorPageLocation (e : ErrorPage) (i : Nat) : Option (List ErrorPageLocation) :=
  match e.redirect with
  | some _ => some []
  | none => do
      let ret ← e.ret
      some [{
        name := generateErrorPageName errPageIndex i
        defaultType := if ret.type ≠ "" then ret.type else "text/html"
        ret := { text := ret.body }
        headers := ret.headers }]

def generateErrorPageLocations (errorPages : List ErrorPage) : Option (List ErrorPageLocation) := do
  let locations ← errorPages.zipIdx.mapM fun (e, i) => generateErrorPageLocation errPageIndex e i
  some locations.flatten

/-- What the locations of one route share. `wallarm` are the settings of the ConfigMap. -/
structure LocationParams where
  upstreamNamer : UpstreamNamer
  crUpstreams : GoMap Upstream
  errorPages : ErrorPageDetails
  originalPath : String
  locSnippets : String
  enableSnippets : Bool
  defaultSnippets : List String
  isVSR : Bool
  vsrName : String
  vsrNamespace : String
  wallarm : Option Version2.Wallarm := none

def nginx418Server : String := "unix:/var/lib/nginx/nginx-418-server.sock"

def generateLocationForRedirect (path : String) (locationSnippets : List String)
    (redirect : ActionRedirect) : Location where
  path := generatePath path
  snippets := locationSnippets
  proxyInterceptErrors := true
  internalProxyPass := "http://" ++ nginx418Server
  errorPages := [{
    name := redirect.url
    codes := "418"
    responseCode := if redirect.code = 0 then 301 else redirect.code }]

def generateLocationForReturn (path : String) (locationSnippets : List String)
    (actionReturn : ActionReturn) (retLocIndex : Nat) : Location × ReturnLocation :=
  ({ path := generatePath path
     snippets := locationSnippets
     proxyInterceptErrors := true
     internalProxyPass := "http://" ++ nginx418Server
     errorPages := [{
       name := returnLocationName retLocIndex
       codes := "418"
       responseCode := if actionReturn.code = 0 then 200 else actionReturn.code }] },
   { name := returnLocationName retLocIndex
     defaultType := if actionReturn.type = "" then "text/plain" else actionReturn.type
     ret := { text := actionReturn.body }
     headers := actionReturn.headers })

variable (params : LocationParams)

def generateLocationForProxying (path upstreamName : String)
    (upstream : Upstream) (internal : Bool) (proxySSLName : String)
    (proxy : Option ActionProxy) (locationSnippets : List String) (serviceName : String) :
    Option Location := do
  let errorPages ← generateErrorPages params.errorPages.index params.errorPages.pages
  some {
    path := generatePath path
    internal
    snippets := locationSnippets
    proxyPass := generateProxyPass upstream.tlsEnable upstreamName internal proxy
    proxyInterceptErrors := params.errorPages.pages ≠ []
    proxyPassRequestHeaders := generateProxyPassRequestHeaders proxy
    proxySetHeaders := generateProxySetHeaders proxy
    proxyHideHeaders := generateProxyHideHeaders proxy
    proxyPassHeaders := generateProxyPassHeaders proxy
    proxyIgnoreHeaders := generateProxyIgnoreHeaders proxy
    proxyPassRewrite := generateProxyPassRewrite path proxy internal
    addHeaders := generateProxyAddHeaders proxy
    rewrites := generateRewrites path proxy internal params.originalPath (isGRPC upstream.type)
    errorPages
    proxySSLName
    serviceName
    isVSR := params.isVSR
    vsrName := params.vsrName
    vsrNamespace := params.vsrNamespace
    grpcPass := generateGRPCPass (isGRPC upstream.type) upstream.tlsEnable upstreamName
    wallarm := params.wallarm }

/-- The upstream an action names; the zero value if there is none. -/
def LocationParams.upstreamOf (upstreamName : String) : Upstream :=
  (params.crUpstreams[upstreamName]?).getD { name := "", service := "", port := 0 }

/-- Only a return action has a return location. Its location gets the default snippets. -/
def generateLocation (path upstreamName : String) (action : Action)
    (internal : Bool) (proxySSLName : String) (retLocIndex : Nat) :
    Option (Location × Option ReturnLocation) :=
  let locationSnippets :=
    generateSnippets params.enableSnippets params.locSnippets params.defaultSnippets
  match action.redirect, action.ret with
  | some redirect, _ => some (generateLocationForRedirect path locationSnippets redirect, none)
  | none, some ret =>
    let (loc, returnLoc) :=
      generateLocationForReturn path params.defaultSnippets ret retLocIndex
    some (loc, some returnLoc)
  | none, none => do
      let upstream := params.upstreamOf upstreamName
      let (_, serviceName) := parseServiceReference upstream.service ""
      let loc ← generateLocationForProxying params path upstreamName upstream internal proxySSLName
        action.proxy locationSnippets serviceName
      some (loc, none)

/-- The location of an action at a path. Naming the upstream is what dereferences the action. -/
def locationOfAction (path : String) (action : Option Action)
    (internal : Bool) (retLocIndex : Nat) : Option (Location × Option ReturnLocation) := do
  let action ← action
  let upstreamName := params.upstreamNamer.getNameForUpstreamFromAction action
  let upstream := params.upstreamOf upstreamName
  let (serviceNamespace, serviceName) :=
    parseServiceReference upstream.service params.upstreamNamer.nspace
  generateLocation params path upstreamName action internal
    (generateProxySSLName serviceName serviceNamespace) retLocIndex

end IngressController.Configs
