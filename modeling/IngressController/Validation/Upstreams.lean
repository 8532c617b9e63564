import IngressController.Api.VirtualServer
import IngressController.Validation.Text

/-! # Validation of upstreams

The checks of the upstreams of VirtualServers and VirtualServerRoutes in
`validation/virtualserver.go`.
-/

namespace IngressController.Validation

open GoString FieldErrors

structure VirtualServerValidator where
  isPlus : Bool := false
  isDosEnabled : Bool := false
  isCertManagerEnabled : Bool := false
  isExternalDNSEnabled : Bool := false
  lib : Libraries

def validatePositiveIntOrZero (n : Int) (path : String) : ErrorList :=
  if n < 0 then [invalidNumber path n "must be positive"] else []

def validatePositiveIntOrZeroFromPointer (n : Option Int) (path : String) : ErrorList :=
  match n with
  | some n => if n < 0 then [invalidNumber path n "must be positive or zero"] else []
  | none => []

def validateBuffer (buff : Option UpstreamBuffers) (path : String) : ErrorList :=
  match buff with
  | none => []
  | some buff =>
    (if buff.number ≤ 0 then [invalidNumber (child path "number") buff.number "must be positive"]
      else []) ++
    (if buff.size = "" then [required (child path "size") "cannot be empty"]
      else validateSize buff.size (child path "size"))

def validateQueue (queue : Option UpstreamQueue) (path : String) : ErrorList :=
  match queue with
  | none => []
  | some queue =>
    validateTime queue.timeout (child path "timeout") ++
      (if queue.size ≤ 0 then [required (child path "size") "must be positive"] else [])

def validateIntFromString (number : String) : Except String Int :=
  match parseInt number.toList with
  | some n => .ok n
  | none => .error (number ++ " must be a valid integer")

def validateStatusCode (status : String) : Option String :=
  match validateIntFromString status with
  | .error msg => some msg
  | .ok code => if code < 100 ∨ code > 999 then some (inclusiveRangeError 100 999) else none

def validateStatusCodeRange (statusRangeStr : String) : Option String :=
  match split statusRangeStr '-' with
  | [first, second] =>
    match validateIntFromString first, validateIntFromString second with
    | .error msg, _ => some msg
    | _, .error msg => some msg
    | .ok lo, .ok hi =>
      match validateStatusCode first, validateStatusCode second with
      | some msg, _ => some msg
      | none, some msg => some msg
      | none, none =>
        if hi ≤ lo then
          some ("range limits must be " ++ toString lo ++ " < " ++ toString hi)
        else none
  | _ => some "ranges must only have 2 numbers"

def validateStatusMatch (s path : String) : ErrorList :=
  if s = "" then []
  else
    (if hasPrefix s "!" ∧ ¬ hasPrefix s "! " then
      [invalid path s "must have an space character after the `!`"] else []) ++
    each (fun i value =>
      if value = "!" then
        if i ≠ 0 then [invalid path s "`!` can only appear once at the beginning"] else []
      else if contains value '-' then invalidAll path s (validateStatusCodeRange value).toList
      else invalidAll path s (validateStatusCode value).toList) (split s ' ')

def validateGrpcStatusCode (code : Int) : List String :=
  if code < 0 ∨ code > 16 then [inclusiveRangeError 0 16] else []

def validateGrpcStatus (status : Option Int) (path : String) : ErrorList :=
  match status with
  | some code => (validateGrpcStatusCode code).map (invalidNumber path code)
  | none => []

def grpcErrMsg : String :=
  "must not include any whitespace character, `\x7b`, `\x7d`, or `;`"

def validateGrpcService (service path : String) : ErrorList :=
  if service = "" then []
  else if service.toList.any fun c => isRegexSpace c || ['\x7b', '\x7d', ';'].contains c then
    [invalid path service (regexError grpcErrMsg "[^\\s\x7b\x7d;]*"
      ["GrpcService", "GrpcService.MyService"])]
  else if containsAny service "#\"'\\`" then
    [invalid path service "must not include quotes, `#`, backslashes, or backticks"]
  else []

section Checks

variable (lib : Libraries)

def headerValueFmt : String := "([^\"$\\\\]|\\\\[^$])*"

def headerValueFmtErrMsg : String :=
  "a valid header must have all '\"' escaped and must not contain any '$' or end with an unescaped '\\'"

def isValidHeaderValue (s : String) : List String :=
  if isEscapedText ['"', '$'] (· ≠ '$') s.toList then []
  else [regexError headerValueFmtErrMsg headerValueFmt ["my.service", "foo"]]

variable (name path : String)

def validateHeaderName : ErrorList :=
  (if name = "" then [required (child path "name") ""] else []) ++
    invalidAll (child path "name") name (lib.isHTTPHeaderName name)

def validateHeader (h : Header) (path : String) : ErrorList :=
  validateHeaderName lib h.name path ++
    invalidAll (child path "value") h.value (isValidHeaderValue h.value)

def validateGrpcHealthCheck (hc : HealthCheck) (typeName path : String) : ErrorList :=
  if typeName ≠ "grpc" then
    (if hc.grpcStatus.isSome then [forbidden (child path "grpcStatus")
      "cannot specify `grpcStatus` on http type health checks"] else []) ++
    (if hc.grpcService ≠ "" then [forbidden (child path "grpcService")
      "cannot specify `grpcService` on http type health checks"] else [])
  else
    (if hc.path ≠ "" then [forbidden (child path "path")
      "cannot specify `path` on gRPC type health checks"] else []) ++
    (if hc.statusMatch ≠ "" then [forbidden (child path "statusMatch")
      "cannot specify `statusMatch` on gRPC type health checks"] else []) ++
    validateGrpcStatus hc.grpcStatus (child path "grpcStatus") ++
    validateGrpcService hc.grpcService (child path "grpcService")

def validateUpstreamHealthCheck (hc : Option HealthCheck) (typeName path : String) : ErrorList :=
  match hc with
  | none => []
  | some hc =>
    validateGrpcHealthCheck hc typeName path ++
    (if hc.path ≠ "" then validatePath lib hc.path (child path "path") else []) ++
    validateTime hc.interval (child path "interval") ++
    validateTime hc.jitter (child path "jitter") ++
    validatePositiveIntOrZero hc.fails (child path "fails") ++
    validatePositiveIntOrZero hc.passes (child path "passes") ++
    validateTime hc.connectTimeout (child path "connect-timeout") ++
    validateTime hc.readTimeout (child path "read-timeout") ++
    validateTime hc.sendTimeout (child path "send-timeout") ++
    validateStatusMatch hc.statusMatch (child path "statusMatch") ++
    validateTime hc.keepaliveTime (child path "keepalive-time") ++
    each (fun i header => validateHeader lib header (index (child path "headers") i))
      hc.headers ++
    (if 0 < hc.port then
      (isValidPortNum hc.port).map (invalidNumber (child path "port") hc.port) else []) ++
    (if hc.persistent ∧ ¬ hc.mandatory then
      [required (child path "mandatory") "must be true when `persistent` is true"] else [])

def validateSessionCookie (sc : Option SessionCookie) (path : String) : ErrorList :=
  match sc with
  | none => []
  | some sc =>
    (if sc.name = "" then [required (child path "name") ""]
      else invalidAll (child path "name") sc.name (isCookieName sc.name)) ++
    (if sc.path ≠ "" then validatePath lib sc.path (child path "path") else []) ++
    (if sc.expires ≠ "max" then validateTime sc.expires (child path "expires") else []) ++
    (if sc.domain ≠ "" then
      invalidAll (child path "domain") sc.domain
        (lib.isDNS1123Subdomain (String.ofList (trimPrefix sc.domain "."))) else []) ++
    (if sc.sameSite ≠ "" ∧
        String.ofList (toLower sc.sameSite.toList) ∉ ["strict", "lax", "none"] then
      [invalid (child path "samesite") sc.sameSite "must be one of: `strict`, `lax`, `none`"]
      else [])

def validateUpstreamName : ErrorList := validateDNS1035Label lib name path

def validateServiceName : ErrorList := validateDNS1035Label lib name path

def validateVirtualServerServiceName : ErrorList :=
  if contains name '/' then
    match split name '/' with
    | [nspace, service] =>
      if validateDNS1123Label lib nspace path ≠ [] then
        [invalid path name "invalid namespace in service reference"]
      else if validateServiceName lib service path ≠ [] then
        [invalid path name "invalid service name in service reference"]
      else []
    | _ => [invalid path name " service reference must be in the format namespace/service-name"]
  else validateServiceName lib name path

/-- The labels in the order of their names; Go leaves the order open. -/
def validateLabels (labels : GoMap String) (path : String) : ErrorList :=
  labels.toList.flatMap fun (labelName, labelValue) =>
    invalidAll path labelName (lib.isQualifiedName labelName) ++
      invalidAll path labelValue (lib.isValidLabelValue labelValue)

def validateBackupName (backup path : String) : ErrorList :=
  if backup = "" then [] else validateServiceName lib backup (child path "backup")

def validateBackupPortFromPointer (backupPort : Option Nat) (path : String) : ErrorList :=
  match backupPort with
  | none => []
  | some port => (isValidPortNum port).map (invalidNumber (child path "port") port)

/-- A backup needs both its service and its port. -/
def validateBackup (backup : String) (backupPort : Option Nat) (lbMethod path : String) :
    ErrorList :=
  if backup = "" ∧ backupPort = none then []
  else
    (if backup ≠ "" ∧ backupPort = none then
      [⟨.invalid, child path "backupPort", .none, "both backup and backup port must be specified"⟩]
      else []) ++
    (if backup = "" ∧ backupPort ≠ none then
      [invalid (child path "backup") backup "both backup and backup port must be specified"]
      else []) ++
    (if containsText lbMethod "hash" ∨ containsText lbMethod "hash_ip" ∨
        containsText lbMethod "random" then
      [forbidden (child path "backup")
        "backup cannot be used along with the 'hash', 'hash_ip' and 'random' load balancing methods"]
      else []) ++
    validateBackupName lib backup (child path "backup") ++
    validateBackupPortFromPointer backupPort (child path "backupPort")

end Checks

def validNextUpstreamParams : List String :=
  ["error", "timeout", "invalid_header", "http_500", "http_502", "http_503", "http_504",
    "http_403", "http_404", "http_429", "non_idempotent", "off", ""]

/-- An unknown parameter and a repeated one are separate errors. -/
def validateNextUpstream (nextUpstream path : String) : ErrorList :=
  let params := (fields nextUpstream.toList).map String.ofList
  params.zipIdx.flatMap fun (para, i) =>
    (if para ∈ validNextUpstreamParams then [] else [invalid path para "not a valid parameter"]) ++
      (if para ∈ params.take i then [invalid path para "can not have duplicate parameters"] else [])

def validateUpstreamType (typeName path : String) : ErrorList :=
  if typeName = "" ∨ typeName = "grpc" ∨ typeName = "http" then []
  else [invalid path typeName "must be one of `grpc` or `http`"]

def rejectPlusResourcesInOSS (upstream : Upstream) (path : String) (isPlus : Bool) : ErrorList :=
  if isPlus then []
  else
    (if upstream.healthCheck.isSome then [forbidden (child path "healthCheck")
      "active health checks are only supported in NGINX Plus"] else []) ++
    (if upstream.slowStart ≠ "" then [forbidden (child path "slow-start")
      "slow start is only supported in NGINX Plus"] else []) ++
    (if upstream.queue.isSome then [forbidden (child path "queue")
      "queue is only supported in NGINX Plus"] else []) ++
    (if upstream.ntlm then [forbidden (child path "ntlm")
      "NTLM is only supported in NGINX Plus"] else [])

namespace VirtualServerValidator

variable (vsv : VirtualServerValidator)

def validateUpstreamLBMethod (lbMethod path : String) : ErrorList :=
  if lbMethod = "" then []
  else
    match if vsv.isPlus then parseLBMethodForPlus vsv.lib lbMethod
        else parseLBMethod vsv.lib lbMethod with
    | .error err => [invalid path lbMethod err]
    | .ok _ => []

variable (u : Upstream) (path : String)

def validateSubselector : ErrorList :=
  if u.useClusterIP ∧ u.subselector.isSome then
    [forbidden (child path "subselector") "subselector can't be used with use-cluster-ip"]
  else validateLabels vsv.lib (u.subselector.getD ∅) (child path "subselector")

/-- The sizes that balancing the buffers changes. -/
def validateBufferSizes : ErrorList :=
  validateBuffer u.proxyBuffers (child path "buffers") ++
    validateSize u.proxyBufferSize (child path "buffer-size") ++
    validateSize u.proxyBusyBuffersSize (child path "busy-buffers-size")

/-- The checks of the service and of how requests are passed to it. -/
def validateProxying : ErrorList :=
  vsv.validateSubselector u path ++
  validateVirtualServerServiceName vsv.lib u.service (child path "service") ++
  validateTime u.proxyConnectTimeout (child path "connect-timeout") ++
  validateTime u.proxyReadTimeout (child path "read-timeout") ++
  validateTime u.proxySendTimeout (child path "send-timeout") ++
  validateNextUpstream u.proxyNextUpstream (child path "next-upstream") ++
  validateTime u.proxyNextUpstreamTimeout (child path "next-upstream-timeout") ++
  validatePositiveIntOrZeroFromPointer (some u.proxyNextUpstreamTries)
    (child path "next-upstream-tries") ++
  vsv.validateUpstreamLBMethod u.lbMethod (child path "lb-method") ++
  validateTime u.failTimeout (child path "fail-timeout") ++
  validatePositiveIntOrZeroFromPointer u.maxFails (child path "max-fails") ++
  validatePositiveIntOrZeroFromPointer u.keepalive (child path "keepalive") ++
  validatePositiveIntOrZeroFromPointer u.maxConns (child path "max-conns") ++
  validateOffset u.clientMaxBodySize (child path "client-max-body-size") ++
  validateUpstreamHealthCheck vsv.lib u.healthCheck u.type (child path "healthCheck") ++
  validateTime u.slowStart (child path "slow-start")

/-- The checks made after those of the buffer sizes. -/
def validateServers : ErrorList :=
  validateSize u.clientBodyBufferSize (child path "client-body-buffer-size") ++
  validateQueue u.queue (child path "queue") ++
  validateSessionCookie vsv.lib u.sessionCookie (child path "sessionCookie") ++
  validateUpstreamType u.type (child path "type") ++
  (isValidPortNum u.port).map (invalidNumber (child path "port") u.port) ++
  validateBackup vsv.lib u.backup u.backupPort u.lbMethod path ++
  rejectPlusResourcesInOSS u path vsv.isPlus

def validateUpstream : ErrorList :=
  vsv.validateProxying u path ++ validateBufferSizes u path ++ vsv.validateServers u path

/-- The errors, and the names of the upstreams with valid names. -/
def validateUpstreams (upstreams : List Upstream) (path : String) : ErrorList × List String :=
  distinctBy Upstream.name
    (fun i u => validateUpstreamName vsv.lib u.name (child (index path i) "name"))
    (fun i u => duplicate (child (index path i) "name") u.name)
    (fun i u => vsv.validateUpstream u (index path i)) upstreams

theorem validateUpstreams_eq_nil {upstreams : List Upstream} {path : String} :
    (vsv.validateUpstreams upstreams path).1 = [] ↔
      (∀ (i : Nat) u, upstreams[i]? = some u →
        validateUpstreamName vsv.lib u.name (child (index path i) "name") = [] ∧
          vsv.validateUpstream u (index path i) = []) ∧
        (upstreams.map Upstream.name).Nodup :=
  distinctBy_eq_nil

end VirtualServerValidator

end IngressController.Validation
