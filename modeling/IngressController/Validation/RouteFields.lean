import IngressController.Validation.Upstreams

/-! # Validation of routes

Actions, splits, matches and error pages of a route of a VirtualServer or a subroute of a
VirtualServerRoute. `validateRoute` counts the alternatives of a route; the names of the
upstreams that actions may use are those the validation of the upstreams collected.
-/

namespace IngressController.Validation

open GoString FieldErrors

def validateUnquotedPath (path fieldPath : String) : ErrorList :=
  if containsAny path "#\"`" then
    [invalid fieldPath path "must not include quotes, `#`, or backticks"]
  else []

section Paths

variable (lib : Libraries) (path fieldPath : String)

/-- NGINX reads the path from a quoted token, so it is the unescaped text that has to compile. -/
def validateRegexPath : ErrorList :=
  let regex := match ["~*", "~"].find? (hasPrefix path) with
    | some modifier => locationOf path modifier
    | none => path
  if !regex.toList.all lib.isPrint then
    [invalid fieldPath path "must not include non-printable characters"]
  else
    match lib.compileRegexp (String.ofList (unescapeNGINXToken regex.toList)) with
    | some err => [invalid fieldPath path ("must be a valid regular expression: " ++ err)]
    | none =>
      match validateEscapedString regex ["*.jpg", "^/images/image_*.png$"] with
      | some err => [invalid fieldPath path err]
      | none =>
        if containsAny regex "\r\n`" then
          [invalid fieldPath path "must not include line breaks or backticks"]
        else []

def validateLocationPath : ErrorList :=
  validatePath lib path fieldPath ++ validateUnquotedPath path fieldPath

def validateRoutePath : ErrorList :=
  if path = "" then [required fieldPath ""]
  else if hasPrefix path "^~" then validateLocationPath lib (locationOf path "^~") fieldPath
  else if hasPrefix path "~" then validateRegexPath lib path fieldPath
  else if hasPrefix path "/" then validateLocationPath lib path fieldPath
  else if hasPrefix path "=" then validateLocationPath lib (locationOf path "=") fieldPath
  else [invalid fieldPath path "must start with /, ~, = or ^~"]

end Paths

/-- Paths of one category may share a VirtualServerRoute. -/
def subrouteModifierCategory (path : String) : String :=
  if hasPrefix path "~" then "regex"
  else if hasPrefix path "=" then "exact"
  else if hasPrefix path "^~" then "longest-prefix"
  else "prefix"

/-! ## Rewrites, redirects and returns -/

/-- A `$` may only be followed by a digit. -/
def hasNamedVariable : List Char → Bool
  | [] => false
  | c :: rest => (c = '$' && rest.head?.any fun d => !isDigit d) || hasNamedVariable rest

def validateStringNoVariables (s path : String) : ErrorList :=
  if hasNamedVariable s.toList then
    [invalid path s "`$` character can be only followed by a number"]
  else []

variable (lib : Libraries)

def validateActionProxyRewritePath (rewritePath path : String) : ErrorList :=
  if rewritePath = "" then []
  else validateStringNoVariables rewritePath path ++ validatePath lib rewritePath path ++
    validateUnquotedPath rewritePath path

def validateActionProxyRewritePathForRegexp (rewritePath path : String) : ErrorList :=
  if rewritePath = "" then []
  else validateStringNoVariables rewritePath path ++
    escapedErrors path rewritePath ["/rewrite$1", "/images"]

def validRedirectStatusCodes : List Int := [301, 302, 307, 308]

def validateRedirectStatusCode (code : Int) (path : String) : ErrorList :=
  if code ∈ validRedirectStatusCodes then []
  else [invalidNumber path code
    "status code out of accepted range. accepted values are '301', '302', '307', '308'"]

def validateActionReturnCode (code : Int) (path : String) : ErrorList :=
  if (200 ≤ code ∧ code ≤ 299) ∨ (400 ≤ code ∧ code ≤ 599) then []
  else [invalidNumber path code
    "must be a valid status code either 2XX, 4XX or 5XX, for example, 200 or 402."]

def actionReturnTypeFmt : String := "([^;\\\x7b\\\x7d\"\\\\]|\\\\.)*"

def actionReturnTypeErr : String :=
  "must have all '\"' (double quotes), '\x7b', '\x7d' or ';' escaped and must not end with an unescaped '\\' (backslash)"

def validateActionReturnType (returnType path : String) : ErrorList :=
  if isEscapedText [';', '\x7b', '\x7d', '"'] isAnyChar returnType.toList then []
  else [invalid path returnType
    (regexError actionReturnTypeErr actionReturnTypeFmt ["type/subtype", "application/json"])]

def returnBodyVariables : List String :=
  ["request_uri", "request_method", "request_body", "scheme", "args", "host", "request_time",
    "request_length", "nginx_version", "pid", "connection", "remote_addr", "remote_port",
    "time_iso8601", "time_local", "server_addr", "server_port", "server_name", "server_protocol",
    "connections_active", "connections_reading", "connections_writing", "connections_waiting"]

def returnBodySpecialVariables : List String := ["arg_", "http_", "cookie_"]

def validRedirectVariableNames : List String :=
  ["scheme", "http_x_forwarded_proto", "request_uri", "host"]

def validErrorPageRedirectVariables : List String := ["scheme", "http_x_forwarded_proto"]

def errorPageReturnBodyVariable : List String := ["upstream_status"]

def errorPageHeaderValueVariables : List String := ["upstream_status"]

/-- All variables of a return body and those of TLS connections. -/
def actionProxyHeaderVariables : List String :=
  returnBodyVariables ++ ["ssl_cipher", "ssl_ciphers", "ssl_client_cert", "ssl_client_escaped_cert",
      "ssl_client_fingerprint", "ssl_client_i_dn", "ssl_client_i_dn_legacy", "ssl_client_raw_cert",
      "ssl_client_s_dn", "ssl_client_s_dn_legacy", "ssl_client_serial", "ssl_client_v_end",
      "ssl_client_v_remain", "ssl_client_v_start", "ssl_client_verify", "ssl_curves",
      "ssl_early_data", "ssl_protocol", "ssl_server_name", "ssl_session_id", "ssl_session_reused"]

def actionProxyHeaderSpecialVariables : List String :=
  ["arg_", "http_", "cookie_", "jwt_claim_", "jwt_header_"]

def validIgnoreHeaders : List String :=
  ["X-Accel-Redirect", "X-Accel-Expires", "X-Accel-Limit-Rate", "X-Accel-Buffering",
    "X-Accel-Charset", "Expires", "Cache-Control", "Set-Cookie", "Vary"]

def validateIgnoreHeaders (ignoreHeaders : List String) (path : String) : ErrorList :=
  each (fun i h =>
    if h ∈ validIgnoreHeaders then []
    else [invalid (index path i) h ("not a valid ignore header name. Accepted headers are : " ++
      prettyString validIgnoreHeaders)]) ignoreHeaders

/-- The NGINX variables a condition may look at. -/
def validVariableNames : List String :=
  ["$args", "$http2", "$https", "$remote_addr", "$remote_port", "$query_string", "$request",
    "$request_body", "$request_uri", "$request_method", "$scheme"]

def validateVariableName (name path : String) : ErrorList :=
  if !hasPrefix name "$" then [invalid path name "must start with `$`"]
  else if name ∈ validVariableNames then []
  else [invalid path name "is not allowed or is not an NGINX variable"]

def isValidMatchValue (value : String) : List String :=
  (validateEscapedString value ["value-123"]).toList

def countSet (fields : List Bool) : Nat := fields.count true

def validateCondition (condition : Condition) (path : String) : ErrorList :=
  (if condition.header ≠ "" then
    invalidAll (child path "header") condition.header (lib.isHTTPHeaderName condition.header)
    else []) ++
  (if condition.cookie ≠ "" then
    invalidAll (child path "cookie") condition.cookie (isCookieName condition.cookie) else []) ++
  (if condition.argument ≠ "" then
    invalidAll (child path "argument") condition.argument (isArgumentName condition.argument)
    else []) ++
  (if condition.variableName ≠ "" then
    validateVariableName condition.variableName (child path "variable") else []) ++
  (if countSet [condition.header ≠ "", condition.cookie ≠ "", condition.argument ≠ "",
      condition.variableName ≠ ""] ≠ 1 then
    [invalid path "" "must specify exactly one of: `header`, `cookie`, `argument` or `variable`"]
    else []) ++
  invalidAll (child path "value") condition.value (isValidMatchValue condition.value)

/-! ## Policies and App Protect DoS -/

def validatePolicies (policies : List PolicyReference) (path nspace : String) : ErrorList :=
  let keyOf := fun p : PolicyReference =>
    (if p.nspace = "" then nspace else p.nspace) ++ "/" ++ p.name
  (distinctBy keyOf (fun _ _ => [])
    (fun i p => duplicate (index path i) (keyOf p))
    (fun i p =>
      (if p.name = "" then [required (child (index path i) "name") ""]
        else invalidAll (child (index path i) "name") p.name (lib.isDNS1123Subdomain p.name)) ++
      (if p.nspace ≠ "" then
        invalidAll (child (index path i) "namespace") p.nspace (lib.isDNS1123Label p.nspace)
        else []))
    policies).1

namespace VirtualServerValidator

variable (vsv : VirtualServerValidator)

def validateDos (dos path : String) : ErrorList :=
  if dos = "" then []
  else
    (if vsv.isDosEnabled then [] else [forbidden path "field requires DOS enablement"]) ++
      invalidAll path dos (vsv.lib.isQualifiedName dos)

def validateRedirectURL (redirectURL path : String) (validVars : List String) : ErrorList :=
  if redirectURL = "" then [required path "must specify a url"]
  else if !containsText redirectURL "://" then
    [invalid path redirectURL
      "must contain the protocol with '://', for example http://, https:// or $\x7bscheme\x7d://"]
  else
    match validateEscapedString redirectURL ["http://www.nginx.com",
        "$\x7bscheme\x7d://$\x7bhost\x7d/green/", "\\\"http://www.nginx.com\\\""] with
    | some err => [invalid path redirectURL err]
    | none => validateStringWithVariables vsv.lib vsv.isPlus redirectURL path [] validVars

def validateActionRedirect (redirect : ActionRedirect) (path : String) (validVars : List String) :
    ErrorList :=
  vsv.validateRedirectURL redirect.url (child path "url") validVars ++
    (if redirect.code ≠ 0 then validateRedirectStatusCode redirect.code (child path "code") else [])

def validateActionReturn (r : ActionReturn) (path : String)
    (specialValidVars validVars : List String) : ErrorList :=
  if r.body = "" then [required (child path "body") ""]
  else
    validateEscapedStringWithVariables vsv.lib vsv.isPlus r.body (child path "body")
      specialValidVars validVars ++
    (if r.type ≠ "" then validateActionReturnType r.type (child path "type") else []) ++
    (if r.code ≠ 0 then validateActionReturnCode r.code (child path "code") else [])

def validateReferencedUpstream (name path : String) (upstreamNames : List String) : ErrorList :=
  let upstreamErrs := validateUpstreamName vsv.lib name path
  if upstreamErrs ≠ [] then upstreamErrs
  else if name ∉ upstreamNames then [notFound path name]
  else []

def validateActionProxyHeader (h : Header) (path : String) : ErrorList :=
  validateHeaderName vsv.lib h.name path ++
    validateEscapedStringWithVariables vsv.lib vsv.isPlus h.value (child path "value")
      actionProxyHeaderSpecialVariables actionProxyHeaderVariables

def validateActionProxyRequestHeaders (requestHeaders : Option ProxyRequestHeaders)
    (path : String) : ErrorList :=
  match requestHeaders with
  | none => []
  | some headers =>
    each (fun i header => vsv.validateActionProxyHeader header (index path i)) headers.set

def validateActionProxyResponseHeaders (responseHeaders : Option ProxyResponseHeaders)
    (path : String) : ErrorList :=
  match responseHeaders with
  | none => []
  | some headers =>
    each (fun i header => invalidAll (index (child path "hide") i) header
      (vsv.lib.isHTTPHeaderName header)) headers.hide ++
    each (fun i header => invalidAll (index (child path "pass") i) header
      (vsv.lib.isHTTPHeaderName header)) headers.pass ++
    each (fun i header => vsv.validateActionProxyHeader header.header
      (index (child path "add") i)) headers.add ++
    validateIgnoreHeaders headers.ignore (child path "ignore")

/-- `internal` actions are those of splits and matches. -/
def validateActionProxy (p : ActionProxy) (fieldPath : String) (upstreamNames : List String)
    (path : String) (internal : Bool) : ErrorList :=
  vsv.validateReferencedUpstream p.upstream (child fieldPath "upstream") upstreamNames ++
  vsv.validateActionProxyRequestHeaders p.requestHeaders (child fieldPath "requestHeaders") ++
  vsv.validateActionProxyResponseHeaders p.responseHeaders (child fieldPath "responseHeaders") ++
  (if hasPrefix path "~" || internal then
    validateActionProxyRewritePathForRegexp p.rewritePath (child fieldPath "rewritePath")
  else validateActionProxyRewritePath vsv.lib p.rewritePath (child fieldPath "rewritePath"))

def countActions (action : Action) : Nat :=
  countSet [action.pass ≠ "", action.redirect.isSome, action.ret.isSome, action.proxy.isSome]

def validateAction (action : Action) (fieldPath : String) (upstreamNames : List String)
    (path : String) (internal : Bool) : ErrorList :=
  if countActions action ≠ 1 then
    [required fieldPath
      "action must specify exactly one of `pass`, `redirect`, `return` or `proxy`"]
  else
    (if action.pass ≠ "" then
      vsv.validateReferencedUpstream action.pass (child fieldPath "pass") upstreamNames else []) ++
    (match action.redirect with
      | some redirect => vsv.validateActionRedirect redirect (child fieldPath "redirect")
          validRedirectVariableNames
      | none => []) ++
    (match action.ret with
      | some ret =>
        vsv.validateActionReturn ret (child fieldPath "return") returnBodySpecialVariables
          returnBodyVariables ++
        each (fun i header => validateHeader vsv.lib header
          (index (child (child fieldPath "return") "headers") i)) ret.headers
      | none => []) ++
    (match action.proxy with
      | some proxy =>
        vsv.validateActionProxy proxy (child fieldPath "proxy") upstreamNames path internal
      | none => [])

/-! ## Splits and matches -/

def validateSplit (s : Split) (fieldPath : String) (upstreamNames : List String) (path : String) :
    ErrorList :=
  (isInRange s.weight 0 100).map (invalidNumber (child fieldPath "weight") s.weight) ++
    (match s.action with
      | none => [required (child fieldPath "action") ""]
      | some action =>
        vsv.validateAction action (child fieldPath "action") upstreamNames path true)

variable (splits : List Split)

def totalWeight : Int := (splits.map Split.weight).sum

def validateSplits (fieldPath : String) (upstreamNames : List String) (path : String) : ErrorList :=
  if splits.length < 2 then [invalid fieldPath "" "must include at least 2 splits"]
  else
    each (fun i s => vsv.validateSplit s (index fieldPath i) upstreamNames path) splits ++
      (if totalWeight splits ≠ 100 then
        [invalid fieldPath "" "the sum of the weights of all splits must be equal to 100"] else [])

/-- A list of splits that is not empty is checked and counts as one alternative. -/
def validateSomeSplits (fieldPath : String) (upstreamNames : List String)
    (path : String) : ErrorList :=
  if splits ≠ [] then vsv.validateSplits splits (child fieldPath "splits") upstreamNames path
  else []

def validateSomeAction (action : Option Action) (fieldPath : String) (upstreamNames : List String)
    (path : String) (internal : Bool) : ErrorList :=
  match action with
  | some action => vsv.validateAction action (child fieldPath "action") upstreamNames path internal
  | none => []

def validateMatch (m : Match) (fieldPath : String) (upstreamNames : List String) (path : String) :
    ErrorList :=
  (if m.conditions = [] then
    [required (child fieldPath "conditions") "must specify at least one condition"]
  else each (fun i c => validateCondition vsv.lib c (index (child fieldPath "conditions") i))
    m.conditions) ++
  vsv.validateSomeAction m.action fieldPath upstreamNames path true ++
  vsv.validateSomeSplits m.splits fieldPath upstreamNames path ++
  (if countSet [m.action.isSome, m.splits ≠ []] ≠ 1 then
    [invalid fieldPath "" "must specify exactly one of `action` or `splits`"] else [])

def errorPageHasRequiredFields (errorPage : ErrorPage) : Bool :=
  countSet [errorPage.ret.isSome, errorPage.redirect.isSome] = 1

def validateErrorPageHeader (h : Header) (path : String) : ErrorList :=
  validateHeaderName vsv.lib h.name path ++
    escapedErrors (child path "value") h.value ["value", "\\\"$\x7bstatus\x7d\\\""] ++
    validateStringWithVariables vsv.lib vsv.isPlus h.value (child path "value") []
      errorPageHeaderValueVariables

def validateErrorPageReturn (r : ActionReturn) (path : String) : ErrorList :=
  vsv.validateActionReturn r path [] errorPageReturnBodyVariable ++
    each (fun i header => vsv.validateErrorPageHeader header (index (child path "headers") i))
      r.headers

def validateErrorPageRedirect (r : ActionRedirect) (path : String) : ErrorList :=
  vsv.validateActionRedirect r path validErrorPageRedirectVariables

def validateErrorPage (errorPage : ErrorPage) (path : String) : ErrorList :=
  if !errorPageHasRequiredFields errorPage then
    [required path "must specify exactly one of `redirect` or `return`"]
  else if errorPage.codes = [] then
    [required (child path "codes") "must include at least 1 status code in `codes`"]
  else
    each (fun i c => (isInRange c 300 599).map (invalidNumber (index (child path "codes") i) c))
      errorPage.codes ++
    (match errorPage.ret with
      | some ret => vsv.validateErrorPageReturn ret (child path "return")
      | none => []) ++
    (match errorPage.redirect with
      | some redirect => vsv.validateErrorPageRedirect redirect (child path "redirect")
      | none => [])

def validateRouteSelector (routeSelector : RouteSelector) (path : String) : ErrorList :=
  if routeSelector.matchLabels.isEmpty then
    [required (child path "matchLabels") "must specify at least one label"]
  else
    validateLabels vsv.lib routeSelector.matchLabels (child path "matchLabels") ++
      routeSelector.matchLabels.toList.flatMap fun (k, v) =>
        if v = "" then [invalid (key (child path "matchLabels") k) v
          "label value must be non-empty"]
        else []

def validateRouteField (value path : String) : ErrorList :=
  invalidAll path value (vsv.lib.isQualifiedName value)

/-- The alternatives that count. Matches do not, and the `route` field of a subroute is an error
of its own. -/
def routeFieldCount (route : Route) (isRouteFieldForbidden : Bool) : Nat :=
  countSet [route.action.isSome, route.splits ≠ [], route.routeSelector.isSome,
    route.route ≠ "" ∧ ¬ isRouteFieldForbidden]

def validateRoute (route : Route) (fieldPath : String) (upstreamNames : List String)
    (isRouteFieldForbidden : Bool) (nspace : String) : ErrorList :=
  validateRoutePath vsv.lib route.path (child fieldPath "path") ++
  validatePolicies vsv.lib route.policies (child fieldPath "policies") nspace ++
  vsv.validateSomeAction route.action fieldPath upstreamNames route.path false ++
  vsv.validateSomeSplits route.splits fieldPath upstreamNames route.path ++
  each (fun i m => vsv.validateMatch m (index (child fieldPath "matches") i) upstreamNames
    route.path) route.routeMatches ++
  (match route.routeSelector with
    | some selector => vsv.validateRouteSelector selector (child fieldPath "routeSelector")
    | none => []) ++
  each (fun i e => vsv.validateErrorPage e (index (child fieldPath "errorPages") i))
    (route.errorPages.getD []) ++
  (if route.route ≠ "" then
    if isRouteFieldForbidden then [forbidden (child fieldPath "route") "is not allowed"]
    else vsv.validateRouteField route.route (child fieldPath "route")
  else []) ++
  (if routeFieldCount route isRouteFieldForbidden ≠ 1 then
    [invalid fieldPath "" (if isRouteFieldForbidden ∨ route.routeMatches ≠ [] then
      "must specify exactly one of `action` or `splits`"
      else "must specify exactly one of `action`, `splits`, `route` or `routeSelector`")]
  else []) ++
  (if route.addHeaderInherit ≠ "" then
    validateAddHeaderInherit route.addHeaderInherit (child fieldPath "add-header-inherit")
  else []) ++
  vsv.validateDos route.dos (child fieldPath "dos")

end VirtualServerValidator

end IngressController.Validation
