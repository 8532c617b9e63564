import IngressController.Validation.RouteFields

/-! # Validation of VirtualServers and VirtualServerRoutes

`ValidateVirtualServer`, `ValidateVirtualServerRoute` and the validation of a
VirtualServerRoute against the paths of the VirtualServer that refers to it.
-/

namespace IngressController.Validation

open GoString FieldErrors

def validateTLSRedirect (redirect : Option TLSRedirect) (path : String) : ErrorList :=
  match redirect with
  | none => []
  | some redirect =>
    (match redirect.code with
      | some code => validateRedirectStatusCode code (child path "code")
      | none => []) ++
    (if redirect.basedOn ∈ ["", "scheme", "x-forwarded-proto"] then []
      else [invalid (child path "basedOn") redirect.basedOn
        "accepted values are 'scheme', 'x-forwarded-proto'"])

def validateTLSCmFields (cm : Option CertManager) (isCertManagerEnabled : Bool)
    (secret path : String) : ErrorList :=
  match cm with
  | none => []
  | some _ =>
    (if isCertManagerEnabled then []
      else [forbidden path "field requires cert-manager enablement"]) ++
    (if secret = "" then [forbidden path "field requires TLS.Secret to be specified"] else [])

def validateHost (lib : Libraries) (host path : String) : ErrorList :=
  if host = "" then [required path ""]
  else if hasPrefix host "*." then invalidAll path host (lib.isWildcardDNS1123Subdomain host)
  else invalidAll path host (lib.isDNS1123Subdomain host)

def validateVirtualServerRouteHost (lib : Libraries) (host virtualServerHost path : String) :
    ErrorList :=
  validateHost lib host path ++ (if virtualServerHost ≠ "" ∧ host ≠ virtualServerHost then
      [invalid path host ("must be equal to '" ++ virtualServerHost ++ "'")] else [])

def isRegexOrExactMatch (path : String) : Bool := hasPrefix path "~" || hasPrefix path "="

namespace VirtualServerValidator

variable (vsv : VirtualServerValidator)

def validateTLS (tls : Option TLS) (path : String) : ErrorList :=
  match tls with
  | none => []
  | some tls =>
    validateSecretName vsv.lib tls.secret (child path "secret") ++
    validateTLSRedirect tls.redirect (child path "redirect") ++
    validateTLSCmFields tls.certManager vsv.isCertManagerEnabled tls.secret
      (child path "cert-manager")

def validateExternalDNS (ed : ExternalDNS) (path : String) : ErrorList :=
  if ed.enable ∧ ¬ vsv.isExternalDNSEnabled then
    [forbidden path "field requires externalDNS enablement"]
  else []

/-- The route a VirtualServer refers to, with its namespace. -/
def routeReference (r : Route) (nspace : String) : String :=
  if contains r.route '/' then r.route else nspace ++ "/" ++ r.route

variable (routes : List Route)

/-- The routes that refer to one VirtualServerRoute must use paths of one category, that of the
first of them. -/
def validateRouteCategory (path nspace : String) (i : Nat) (r : Route) : ErrorList :=
  let vsrRef := routeReference r nspace
  match routes.find? fun r' => r'.route ≠ "" ∧ routeReference r' nspace = vsrRef with
  | some first =>
    let category := subrouteModifierCategory r.path
    if r.route = "" ∨ category = subrouteModifierCategory first.path then []
    else [invalid (child (index path i) "path") r.path
      ("routes referencing the same VirtualServerRoute '" ++ vsrRef ++
        "' must use the same modifier type, but got '" ++ subrouteModifierCategory first.path ++
        "' and '" ++ category ++ "'")]
  | none => []

def validateDistinctRoutes (check : Nat → Route → ErrorList) (routes : List Route)
    (path : String) : ErrorList :=
  (distinctBy (fun r => normalizePath r.path) check
    (fun i r => duplicate (child (index path i) "path") r.path) (fun _ _ => []) routes).1

variable (path : String) (upstreamNames : List String)

/-- The categories are compared last; Go leaves open in which order it visits the references. -/
def validateVirtualServerRoutes (nspace : String) : ErrorList :=
  validateDistinctRoutes
      (fun i r => vsv.validateRoute r (index path i) upstreamNames false nspace) routes path ++
    each (validateRouteCategory routes path nspace) routes

def validateVirtualServerSpec (spec : VirtualServerSpec) (path nspace : String) : ErrorList :=
  let (upstreamErrs, upstreamNames) := vsv.validateUpstreams spec.upstreams (child path "upstreams")
  validateHost vsv.lib spec.host (child path "host") ++
  vsv.validateTLS spec.tls (child path "tls") ++
  validatePolicies vsv.lib spec.policies (child path "policies") nspace ++
  upstreamErrs ++
  vsv.validateVirtualServerRoutes spec.routes (child path "routes") upstreamNames nspace ++
  vsv.validateDos spec.dos (child path "dos") ++
  vsv.validateExternalDNS spec.externalDNS (child path "externalDNS") ++
  (if spec.addHeaderInherit ≠ "" then
    validateAddHeaderInherit spec.addHeaderInherit (child path "add-header-inherit") else [])

def validateVirtualServer (vs : VirtualServer) : Option String :=
  toAggregate (vsv.validateVirtualServerSpec vs.spec "spec" vs.objectMeta.nspace.val)

/-- Without the path of a VirtualServer the subroutes must agree in their category. -/
def validateSubroutesStandalone (nspace : String) : ErrorList :=
  let categoryErrs := match routes with
    | [] => []
    | first :: rest =>
      let cat0 := subrouteModifierCategory first.path
      each (fun i r =>
        let category := subrouteModifierCategory r.path
        if category = cat0 then []
        else [invalid (child (index path (i + 1)) "path") r.path
          ("all subroutes must use the same path modifier type; got '" ++ cat0 ++ "' and '" ++
            category ++ "'")]) rest
  if categoryErrs ≠ [] then categoryErrs
  else validateDistinctRoutes
    (fun i r => vsv.validateRoute r (index path i) upstreamNames true nspace) routes path

def validateSubroutesExact (path vsPath : String)
    (upstreamNames : List String) (nspace : String) : ErrorList :=
  match routes with
  | [r] =>
    if normalizePath r.path ≠ normalizePath vsPath then
      [invalid (child (index path 0) "path") r.path
        ("must have the same path as the referenced VirtualServer route path '" ++ vsPath ++ "'")]
    else vsv.validateRoute r (index path 0) upstreamNames true nspace
  | _ => [invalid path "subroutes" "must have only one subroute if exact match is being used"]

/-- The regex subroutes and the paths of the VirtualServer are the same set. -/
def validateSubroutesRegex (vsPaths : List String) (nspace : String) : ErrorList :=
  let duplicateErrs := validateDistinctRoutes (fun _ _ => []) routes path
  let coverageErrs :=
    (vsPaths.flatMap fun p =>
      if normalizePath p ∈ routes.map (fun r => normalizePath r.path) then []
      else [invalid path "subroutes" ("subroute with path '" ++ p ++
        "' is missing; all VS route paths must be covered by VSR subroutes")]) ++
    each (fun i r =>
      if normalizePath r.path ∈ vsPaths.map normalizePath then []
      else [invalid (child (index path i) "path") r.path ("subroute path '" ++ r.path ++
        "' is not referenced by any VS route; all VSR subroutes must be referenced")]) routes
  if duplicateErrs ≠ [] then duplicateErrs
  else if coverageErrs ≠ [] then coverageErrs
  else each (fun i r => vsv.validateRoute r (index path i) upstreamNames true nspace) routes

def validateSubroutesPrefix (vsPath nspace : String) : ErrorList :=
  let normVSPath := normalizePath vsPath
  validateDistinctRoutes (fun i r =>
    vsv.validateRoute r (index path i) upstreamNames true nspace ++
      (if normVSPath ≠ "" ∧ ¬ hasPrefix (normalizePath r.path) normVSPath then
        [invalid (child (index path i) "path") r.path ("must start with '" ++ vsPath ++ "'")]
      else [])) routes path

def validateVirtualServerRouteSubroutes
    (upstreamNames vsPaths : List String) (nspace : String) : ErrorList :=
  match vsPaths with
  | [] => vsv.validateSubroutesStandalone routes path upstreamNames nspace
  | firstPath :: others =>
    if others ≠ [] ∧ ¬ vsPaths.all (hasPrefix · "~") then
      [invalid path "subroutes" "multiple VS route paths are only supported for regex routes"]
    else if isRegexOrExactMatch firstPath then
      if hasPrefix firstPath "=" then
        vsv.validateSubroutesExact routes path firstPath upstreamNames nspace
      else vsv.validateSubroutesRegex routes path upstreamNames vsPaths nspace
    else vsv.validateSubroutesPrefix routes path upstreamNames firstPath nspace

def validateVirtualServerRouteSpec (spec : VirtualServerRouteSpec) (path virtualServerHost : String)
    (vsPaths : List String) (nspace : String) : ErrorList :=
  let (upstreamErrs, upstreamNames) := vsv.validateUpstreams spec.upstreams (child path "upstreams")
  validateVirtualServerRouteHost vsv.lib spec.host virtualServerHost (child path "host") ++
  upstreamErrs ++
  vsv.validateVirtualServerRouteSubroutes spec.subroutes (child path "subroutes") upstreamNames
    vsPaths nspace

def validateVirtualServerRoute (vsr : VirtualServerRoute) : Option String :=
  toAggregate (vsv.validateVirtualServerRouteSpec vsr.spec "spec" "" [] vsr.objectMeta.nspace.val)

def validateVirtualServerRouteForVirtualServer (vsr : VirtualServerRoute)
    (virtualServerHost : String) (vsPaths : List String) : Option String :=
  toAggregate (vsv.validateVirtualServerRouteSpec vsr.spec "spec" virtualServerHost vsPaths
    vsr.objectMeta.nspace.val)

variable {vsv}

theorem host_of_validateVirtualServer {vs : VirtualServer}
    (h : vsv.validateVirtualServer vs = none) : vs.spec.host ≠ "" := by
  rintro hhost
  simp [validateVirtualServer, validateVirtualServerSpec, toAggregate_eq_none, validateHost,
    hhost] at h

/-- Routes are compared only with a host that is not empty. -/
theorem host_of_validateVirtualServerRouteForVirtualServer {vsr : VirtualServerRoute}
    {virtualServerHost : String} {vsPaths : List String}
    (h : vsv.validateVirtualServerRouteForVirtualServer vsr virtualServerHost vsPaths = none)
    (hhost : virtualServerHost ≠ "") : vsr.spec.host = virtualServerHost := by
  simp only [validateVirtualServerRouteForVirtualServer, validateVirtualServerRouteSpec,
    toAggregate_eq_none, List.append_eq_nil_iff, validateVirtualServerRouteHost] at h
  simpa [hhost] using h.1.1.2

end VirtualServerValidator

end IngressController.Validation
