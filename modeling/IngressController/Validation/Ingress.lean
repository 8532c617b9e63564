import IngressController.Annotations.Parse

/-! # Validation of Ingresses

`validateIngress` of `internal/k8s/validation.go`. `annotationNames` lists the annotations the
source has checks for. What the checks of one annotation are is left open: `checks` gives the
functions of `annotationValidations` for a name.
-/

namespace IngressController.Validation

open GoString FieldErrors Configs

structure IngressOpts where
  isPlus : Bool := false
  appProtectEnabled : Bool := false
  appProtectDosEnabled : Bool := false
  snippetsEnabled : Bool := false
  directiveAutoAdjust : Bool := false
  hostless : Bool := false

structure AnnotationValidationContext where
  annotations : GoMap String
  specServices : List String
  name : String
  value : String
  opts : IngressOpts
  fieldPath : String

abbrev AnnotationValidationFunc := AnnotationValidationContext → ErrorList

/-- The keys of `annotationValidations` in order. -/
def annotationNames : List String :=
  ["appprotect.f5.com/app-protect-enable", "appprotect.f5.com/app-protect-policy",
    "appprotect.f5.com/app-protect-security-log",
    "appprotect.f5.com/app-protect-security-log-destination",
    "appprotect.f5.com/app-protect-security-log-enable",
    "appprotectdos.f5.com/app-protect-dos-resource", "ingress.kubernetes.io/ssl-redirect",
    "nginx.com/health-checks", "nginx.com/health-checks-mandatory",
    "nginx.com/health-checks-mandatory-queue", "nginx.com/jwt-key", "nginx.com/jwt-login-url",
    "nginx.com/jwt-realm", "nginx.com/jwt-token", "nginx.com/policies", "nginx.com/slow-start",
    "nginx.com/sticky-cookie-services", "nginx.org/add-header", "nginx.org/add-header-inherit",
    "nginx.org/app-root", "nginx.org/basic-auth-realm", "nginx.org/basic-auth-secret",
    "nginx.org/client-body-buffer-size", "nginx.org/client-max-body-size",
    "nginx.org/custom-http-errors", "nginx.org/fail-timeout", "nginx.org/grpc-services",
    "nginx.org/hsts", "nginx.org/hsts-behind-proxy", "nginx.org/hsts-include-subdomains",
    "nginx.org/hsts-max-age", "nginx.org/http-redirect-code", "nginx.org/keepalive",
    "nginx.org/lb-method", "nginx.org/limit-req-key", "nginx.org/listen-ports",
    "nginx.org/listen-ports-ssl", "nginx.org/location-snippets", "nginx.org/max-conns",
    "nginx.org/max-fails", "nginx.org/mergeable-ingress-type", "nginx.org/path-regex",
    "nginx.org/policies", "nginx.org/proxy-buffer-size", "nginx.org/proxy-buffering",
    "nginx.org/proxy-buffers", "nginx.org/proxy-busy-buffers-size",
    "nginx.org/proxy-connect-timeout", "nginx.org/proxy-hide-headers",
    "nginx.org/proxy-max-temp-file-size", "nginx.org/proxy-next-upstream",
    "nginx.org/proxy-next-upstream-timeout", "nginx.org/proxy-next-upstream-tries",
    "nginx.org/proxy-pass-headers", "nginx.org/proxy-read-timeout",
    "nginx.org/proxy-redirect-from", "nginx.org/proxy-redirect-to",
    "nginx.org/proxy-send-timeout", "nginx.org/proxy-set-headers", "nginx.org/redirect-to-https",
    "nginx.org/rewrite-target", "nginx.org/rewrites", "nginx.org/server-snippets",
    "nginx.org/server-tokens", "nginx.org/ssl-ciphers", "nginx.org/ssl-redirect",
    "nginx.org/ssl-services", "nginx.org/sticky-cookie-services", "nginx.org/upstream-vhost",
    "nginx.org/upstream-zone-size", "nginx.org/use-cluster-ip", "nginx.org/websocket-services"]

section Annotations

variable (checks : String → List AnnotationValidationFunc)

/-- The errors of the first function that finds any. -/
def validateIngressAnnotation (context : AnnotationValidationContext) : ErrorList :=
  ((checks context.name).map fun check => check context).find? (· ≠ []) |>.getD []

def validateIngressAnnotations (opts : IngressOpts) (annotations : GoMap String)
    (specServices : List String) (fieldPath : String) : ErrorList :=
  annotationNames.flatMap fun name =>
    match annotations[name]? with
    | none => []
    | some value =>
      validateIngressAnnotation checks
        { annotations, specServices, name, value, opts, fieldPath := child fieldPath name }

end Annotations

def proxyRedirectFromAnnotation : String := "nginx.org/proxy-redirect-from"
def proxyRedirectToAnnotation : String := "nginx.org/proxy-redirect-to"

def validateProxyRedirectPair (annotations : GoMap String) (fieldPath : String) : ErrorList :=
  let hasTo := (annotations[ proxyRedirectToAnnotation]?).isSome
  match annotations[ proxyRedirectFromAnnotation]? with
  | none =>
    if hasTo then
      [invalid (child fieldPath proxyRedirectToAnnotation) ""
        "nginx.org/proxy-redirect-to requires nginx.org/proxy-redirect-from to also be set"]
    else []
  | some redirectFrom =>
    if redirectFrom = "off" ∨ redirectFrom = "default" then
      if hasTo then
        [invalid (child fieldPath proxyRedirectToAnnotation) ""
          ("nginx.org/proxy-redirect-to cannot be set when nginx.org/proxy-redirect-from is \"" ++
            redirectFrom ++ "\"")]
      else []
    else if !hasTo then
      [invalid (child fieldPath proxyRedirectFromAnnotation) redirectFrom
        ("nginx.org/proxy-redirect-from with a URL or regex value requires " ++
          "nginx.org/proxy-redirect-to to also be set")]
    else []

def ingressPathFmt : String := "/[^\\s;]*"

def ingressPathErrMsg : String :=
  "must start with / and must not include any whitespace character or `;`"

def isIngressPathText (cs : List Char) : Bool :=
  match cs with
  | '/' :: rest => rest.all fun c => !isRegexSpace c && c ≠ ';'
  | _ => false

/-- The texts that `\x7b(.*?)\x7d` captures, with what is read since an open brace. -/
def bracesContents : Option (List Char) → List Char → List (List Char)
  | _, [] => []
  | none, c :: rest => bracesContents (if c = '\x7b' then some [] else none) rest
  | some content, c :: rest =>
    if c = '\x7d' then content :: bracesContents none rest
    else if c = '\n' then bracesContents none rest
    else bracesContents (some (content ++ [c])) rest

def isAlphabetic (c : Char) : Bool := ('A' ≤ c && c ≤ 'Z') || ('a' ≤ c && c ≤ 'z')

def validateCurlyBraces (path fieldPath : String) : ErrorList :=
  if (bracesContents none path.toList).any (·.any isAlphabetic) then
    [invalid fieldPath path
      "must not include curly braces containing alphabetical characters"]
  else []

/-- A path below `/root` or `/var`, or one of them. -/
def isBelow (dir path : String) : Bool := path = dir || hasPrefix path (dir ++ "/")

def validateIllegalKeywords (path fieldPath : String) : ErrorList :=
  if hasPrefix path "/etc/" || isBelow "/root" path || isBelow "/var" path ||
      containsText path "\\n" || hasSuffix path "\\r" then
    [invalid fieldPath path "must not contain invalid paths"]
  else []

section Spec

variable (lib : Libraries)

def validateIngressRegexPath (path fieldPath : String) : ErrorList :=
  match lib.compileRegexp path with
  | some err => [invalid fieldPath path ("must be a valid regular expression: " ++ err)]
  | none =>
    invalidAll fieldPath path
      (validateEscapedString path ["*.jpg", "^/images/image_*.png$"]).toList

/-- `validatePath`: a path may be missing only if its type is left to the implementation. -/
def validateIngressPath (path : String) (pathType : Option PathType) (fieldPath : String) :
    ErrorList :=
  if path = "" then
    if pathType = some .implementationSpecific then []
    else [required fieldPath "path is required for Exact and Prefix PathTypes"]
  else if hasPrefix path "//" then
    [invalid fieldPath path "protocol-relative URIs not allowed, must not start with '//'"]
  else if (path.toList.splitOnP fun c => c = '/' || c = '\\').contains ['.', '.'] then
    [invalid fieldPath path "path traversal not allowed, path must not contain '..' segments"]
  else if !isIngressPathText path.toList then
    [invalid fieldPath path
      (regexError ingressPathErrMsg ingressPathFmt ["/", "/path", "/path/subpath-123"])]
  else if !path.toList.all lib.isPrint then
    [invalid fieldPath path "must not include non-printable characters"]
  else
    validateIngressRegexPath lib path fieldPath ++ validateCurlyBraces path fieldPath ++
      validateIllegalKeywords path fieldPath

def validateBackend (backend : IngressBackend) (fieldPath : String) : ErrorList :=
  if backend.resource then
    [forbidden (child fieldPath "resource") "resource backends are not supported"]
  else if backend.service = none then
    [required (child fieldPath "service") "service backend must be specified"]
  else []

def validateRulePaths (path : String) (r : IngressRule) : ErrorList :=
  each (fun j (p : HTTPIngressPath) =>
    let idxPath := index (child (child path "http") "paths") j
    validateIngressPath lib p.path p.pathType (child idxPath "path") ++
      validateBackend p.backend (child idxPath "backend")) (r.http.getD [])

/-- An empty host is a host like any other if it is allowed at all. -/
def validateIngressRules (rules : List IngressRule) (fieldPath : String) (allowEmptyHost : Bool) :
    ErrorList :=
  let idxRule := fun i => index (child fieldPath "rules") i
  (distinctBy IngressRule.host
    (fun i r => if r.host = "" ∧ ¬ allowEmptyHost then [required (child (idxRule i) "host") ""]
      else [])
    (fun i r => duplicate (child (idxRule i) "host") r.host)
    (fun i r => validateRulePaths lib (idxRule i) r) rules).1

variable (spec : IngressSpec) (fieldPath : String)

def validateIngressSpec (allowEmptyHost : Bool) : ErrorList :=
  (match spec.defaultBackend with
    | some backend => validateBackend backend (child fieldPath "defaultBackend")
    | none => []) ++
  if spec.rules = [] then [required (child fieldPath "rules") ""]
  else validateIngressRules lib spec.rules fieldPath allowEmptyHost

def hasEmptyHostRule : Bool := spec.rules.any (·.host = "")

def validateHostlessIngress (ing : Ingress) (specPath : String) : ErrorList :=
  each (fun i (tls : IngressTLS) =>
    each (fun j (host : String) =>
      if host = "" then
        [forbidden (index (child (index (child specPath "tls") i) "hosts") j)
          ("empty host is not allowed in tls.hosts; TLS for the default catch-all server is " ++
            "configured via the -default-server-tls-secret CLI flag")]
      else []) tls.hosts) ing.spec.tls

def validateMasterSpec : ErrorList :=
  match spec.rules with
  | [rule] =>
    match (rule.http.getD []).length with
    | 0 => []
    | n + 1 =>
      [tooMany (child (child (index (child fieldPath "rules") 0) "http") "paths") (n + 1) 0]
  | rules => [tooMany (child fieldPath "rules") rules.length 1]

def validateMinionSpec : ErrorList :=
  (if spec.tls ≠ [] then [tooMany (child fieldPath "tls") spec.tls.length 0] else []) ++
  match spec.rules with
  | [rule] =>
    if rule.http.getD [] = [] then
      [required (child (child (index (child fieldPath "rules") 0) "http") "paths")
        "must include at least one path"]
    else []
  | rules => [tooMany (child fieldPath "rules") rules.length 1]

def validateChallengeIngress : ErrorList :=
  match spec.rules with
  | [rule] =>
    match rule.http.getD [] with
    | [p] =>
      match p.backend.service with
      | none =>
        [required (child fieldPath "rules.HTTP.Paths[0].Backend.Service")
          "challenge Ingress must have a Backend Service defined"]
      | some service =>
        if service.port.name ≠ "" then
          [forbidden (child fieldPath "rules.HTTP.Paths[0].Backend.Service.Port.Name")
            "challenge Ingress must have a Backend Service Port Number defined, not Name"]
        else []
    | _ => [forbidden (child fieldPath "rules.HTTP.Paths")
        "challenge Ingress must have exactly 1 path defined"]
  | _ => [forbidden (child fieldPath "rules")
      "challenge Ingress must have exactly 1 rule defined"]

/-- The names of the services, the default backend's first. -/
def getSpecServices : List String :=
  let backends := spec.defaultBackend.toList ++
    spec.rules.flatMap fun rule => (rule.http.getD []).map HTTPIngressPath.backend
  backends.filterMap fun backend => backend.service.map IngressServiceBackend.name

variable (checks : String → List AnnotationValidationFunc)

def validateIngress (opts : IngressOpts) (allowEmptyHost : Bool) (ing : Ingress) : ErrorList :=
  let annotations := ing.objectMeta.annotations.getD ∅
  let hostless := allowEmptyHost && hasEmptyHostRule ing.spec
  validateIngressAnnotations checks { opts with hostless } annotations (getSpecServices ing.spec)
    "annotations" ++
  validateProxyRedirectPair annotations "annotations" ++
  validateIngressSpec lib ing.spec "spec" allowEmptyHost ++
  (if hostless then validateHostlessIngress ing "spec" else []) ++
  (if isMaster ing then validateMasterSpec ing.spec "spec"
    else if isMinion ing then validateMinionSpec ing.spec "spec"
    else []) ++
  if isChallengeIngress ing then validateChallengeIngress ing.spec "spec" else []

/-! ## Reading accepted Ingresses

No check is made of the block page before it is parsed.
-/

/-- The annotations of an accepted Ingress are parsed without a panic exactly if the block page
has no piece without a page that accepted pieces only stand before. A Policy's settings are
always validated without a panic. -/
theorem no_panic_of_accepted_iff (opts : IngressOpts) (allowEmptyHost : Bool) (ing : Ingress)
    (baseCfgParams : ConfigParams)
    (isPlus hasAppProtect hasAppProtectDos enableDirectiveAutoadjust : Bool) :
    ((validateIngress lib checks opts allowEmptyHost ing = [] →
        (parseAnnotations lib ing baseCfgParams isPlus hasAppProtect hasAppProtectDos
          enableDirectiveAutoadjust).isSome) ∧
      ∀ wallarm path, (validateWallarm wallarm path).isSome) ↔
    (validateIngress lib checks opts allowEmptyHost ing = [] →
      ∀ value ∈ (ing.objectMeta.annotations.getD ∅)[ wallarmBlockPageAnnotation]?,
        value = "" ∨ ¬ hasUncheckedPage value) := by
  rw [isSome_parseAnnotations_iff]
  exact and_iff_left fun wallarm path => validateWallarm_spec.1

def teaIngress (blockPage : String) : Ingress where
  objectMeta :=
    { nspace := .of "default"
      name := .of "tea"
      annotations := some ((∅ : GoMap String).insert wallarmBlockPageAnnotation blockPage) }
  spec :=
    { rules :=
        [{ host := "tea.example.com"
           http := some [{ path := "/", backend := { service := some { name := "tea" } } }] }] }

/-- Whatever the checks of the known annotations are, an Ingress with a block page that ends in
a semicolon is accepted, and parsing it panics. -/
theorem accepted_blockPage_panics (checks : String → List AnnotationValidationFunc)
    (opts : IngressOpts) (baseCfgParams : ConfigParams) :
    validateIngress .permissive checks opts false (teaIngress "/page;") = [] ∧
      parseAnnotations .permissive (teaIngress "/page;") baseCfgParams opts.isPlus
        opts.appProtectEnabled opts.appProtectDosEnabled opts.directiveAutoAdjust = none := by
  have hnone : ∀ name ∈ annotationNames,
      ((teaIngress "/page;").objectMeta.annotations.getD ∅)[name]? = none := by decide +kernel
  have hannotations : ∀ opts' services, validateIngressAnnotations checks opts'
      ((teaIngress "/page;").objectMeta.annotations.getD ∅) services "annotations" = [] := by
    intro opts' services
    rw [validateIngressAnnotations, List.flatMap_eq_nil_iff]
    intro name hname
    rw [hnone name hname]
  have hspec : validateProxyRedirectPair ((teaIngress "/page;").objectMeta.annotations.getD ∅)
        "annotations" = [] ∧
      validateIngressSpec .permissive (teaIngress "/page;").spec "spec" false = [] ∧
      isMaster (teaIngress "/page;") = false ∧ isMinion (teaIngress "/page;") = false ∧
      isChallengeIngress (teaIngress "/page;") = false := by decide +kernel
  obtain ⟨hpair, hspec, hmaster, hminion, hchallenge⟩ := hspec
  constructor
  · simp [validateIngress, hannotations, hpair, hspec, hmaster, hminion, hchallenge]
  have hpage : ((teaIngress "/page;").objectMeta.annotations.getD ∅)[
      wallarmBlockPageAnnotation]? = some "/page;" := by decide +kernel
  have hpanic : validateBlockPage "/page;" = none := by decide +kernel
  rw [← Option.not_isSome_iff_eq_none, isSome_parseAnnotations_iff, hpage]
  obtain ⟨hne, hunchecked⟩ := (validateBlockPage_panic "/page;").mp hpanic
  simpa [hne] using hunchecked

/-- Even checks that refuse every annotation they know let the block page through. -/
theorem blockPage_ending_in_semicolon_panics :
    validateIngress .permissive
        (fun _ => [fun context => [invalid context.fieldPath context.value "is refused"]])
        {} false (teaIngress "/page;") = [] ∧
      parseAnnotations .permissive (teaIngress "/page;") {} false false false false =
        none :=
  accepted_blockPage_panics _ {} {}

end Spec

end IngressController.Validation
