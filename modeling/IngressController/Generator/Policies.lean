import IngressController.Generator.AuthPolicies
import IngressController.Generator.OidcPolicies
import IngressController.Generator.RateLimits

/-! # Policies of a context

The policies a context refers to are added in order. The first one that is missing, not supported
or erroneous makes the whole context answer 500.
-/

namespace IngressController.Configs

open GoString

def addAccessControlConfig (cfg : PoliciesCfg) (accessControl : AccessControl) : PoliciesCfg :=
  { cfg with
    allow := cfg.allow ++ accessControl.allow
    deny := cfg.deny ++ accessControl.deny }

variable (opts : PolicyOptions) (cfg : PoliciesCfg)

def addHSTSConfig (hsts : HSTS) (context : String) : Added PoliciesCfg :=
  if context ≠ specContext then .error .isError
  else if !opts.tls && !hsts.behindProxy then .error .isError
  else if cfg.hsts.isSome then .ok cfg
  else do
    let maxAge ← orError hsts.maxAge
    .ok { cfg with hsts := some {
      maxAge
      includeSubDomains := hsts.includeSubDomains
      behindProxy := hsts.behindProxy
      preload := hsts.preload } }

def wallarmOf (wallarm : Wallarm) : Version2.Wallarm where
  mode := wallarm.mode
  modeAllowOverride := wallarm.modeAllowOverride
  fallback := wallarm.fallback
  application := (wallarm.application.map toString).getD ""
  partnerClientUUID := wallarm.partnerClientUUID
  blockPage := wallarm.blockPage
  parseResponse := wallarm.parseResponse
  parseWebsocket := wallarm.parseWebsocket
  unpackResponse := wallarm.unpackResponse
  parserDisable := wallarm.parserDisable

def addWallarmConfig (wallarm : Wallarm) : PoliciesCfg :=
  if cfg.wallarm.isSome then cfg else { cfg with wallarm := some (wallarmOf wallarm) }

def defaultLogOutput : String := "syslog:server=localhost:514"

/-- The bundle file of a policy that was fetched before. -/
def fetchedBundleFilename (polKey suffix : String) : String :=
  let (ns, name) := match split polKey '/' with
    | [ns, name] => (ns, name)
    | _ => ("", "")
  "fetched_" ++ ns ++ "_" ++ name ++ "_" ++ suffix ++ ".tgz"

/-- An App Protect resource by its key, with the namespace of the policy as default. -/
def apResource (resources : GoMap String) (polNamespace key : String) : Added String :=
  orError resources[if hasNamespace key then key else polNamespace ++ "/" ++ key]?

def addedIf {α : Type} (cond : Bool) (value : Added α) : Added (Option α) :=
  if cond then value.map some else .ok none

/-- The log configurations a security log stands for, each with its destination. -/
def securityLogConfs (polKey polNamespace : String) (idx : Nat)
    (log : SecurityLog) : Added (List String) := do
  let logConf ← addedIf (log.apLogConf ≠ "" && !opts.plmEnabled)
    (apResource opts.apResources.logConfs polNamespace log.apLogConf)
  let logBundle ← addedIf (log.apLogBundle ≠ "") (orError (opts.validateBundle log.apLogBundle))
  let fetched ← addedIf (log.hasLogBundleSource || (opts.plmEnabled && log.apLogConf ≠ ""))
    (orError (opts.validateBundle (fetchedBundleFilename polKey ("log_" ++ toString idx))))
  .ok (([logConf, logBundle, fetched].filterMap id).map
    (· ++ " " ++ generateString log.logDest defaultLogOutput))

/-- The deprecated single log counts when there is no list. -/
def securityLogsOf (waf : WAF) : Option (List SecurityLog) :=
  waf.securityLogs.or (waf.securityLog.map fun log => [log])

/-- Every failed look-up is an error; the look-ups after it do not matter. -/
def addWAFConfig (waf : WAF) (polKey polNamespace : String) : Added PoliciesCfg :=
  if cfg.waf.isSome then .ok cfg
  else do
    let apPolicy ← addedIf (waf.apPolicy ≠ "" && !opts.plmEnabled)
      (apResource opts.apResources.policies polNamespace waf.apPolicy)
    let apBundle ← addedIf (waf.apBundle ≠ "") (orError (opts.validateBundle waf.apBundle))
    let fetched ← addedIf (waf.hasBundleSource || (opts.plmEnabled && waf.apPolicy ≠ ""))
      (orError (opts.validateBundle (fetchedBundleFilename polKey "policy")))
    let logs := securityLogsOf waf
    let apLogConf ← ((logs.getD []).zipIdx).mapM fun (log, idx) =>
      securityLogConfs opts polKey polNamespace idx log
    .ok { cfg with waf := some {
      enable := if waf.enable then "on" else "off"
      apPolicy := apPolicy.getD ""
      apBundle := (fetched.or apBundle).getD ""
      apSecurityLogEnable := logs.isSome
      apLogConf := apLogConf.flatten } }

variable (cache : Cache) (owner : PolicyOwnerDetails)

def cacheZoneName : String :=
  let parent := owner.parentNamespace ++ "_" ++ owner.parentName ++ "_" ++ owner.parentType
  if owner.parentNamespace = owner.ownerNamespace && owner.parentName = owner.ownerName then
    parent ++ "_" ++ cache.cacheZoneName
  else
    parent ++ "_" ++ owner.ownerNamespace ++ "_" ++ owner.ownerName ++ "_" ++ cache.cacheZoneName

def cacheCode : IntOrString → String
  | .int n => toString n
  | .str s => s

def generateCacheConfig : Version2.Cache where
  zoneName := cacheZoneName cache owner
  cacheKey := generateString cache.cacheKey "$scheme$proxy_host$request_uri"
  valid :=
    if cache.time = "" then ∅
    else cache.allowedCodes.foldl (fun m code => m.insert (cacheCode code) cache.time) ∅
  spec := cache

def addCacheConfig : PoliciesCfg :=
  if cfg.cache.isSome then cfg else { cfg with cache := some (generateCacheConfig cache owner) }

/-- The name of the variable for the allowed origin: the parent, the owner if it is another
object, and the policy. -/
def generateCORSVariableName (polKey : String) (owner : PolicyOwnerDetails) : String :=
  let parent := [owner.parentNamespace, owner.parentName, owner.parentType]
  let other :=
    if owner.parentNamespace = owner.ownerNamespace && owner.parentName = owner.ownerName then []
    else [owner.ownerNamespace, owner.ownerName]
  let policy := match splitAtMost '/' 1 polKey.toList with
    | [polNamespace, polName] =>
      if polNamespace = [] || polName = [] then []
      else [String.ofList polNamespace, String.ofList polName]
    | _ => []
  "cors_origin_" ++ String.intercalate "_" ((parent ++ other ++ policy).map rfc1123ToSnake)

variable (origin : String)

def originURL : Option URL :=
  if origin = "*" then none
  else (opts.parseURL origin).filter fun url =>
    (url.scheme = "http" || url.scheme = "https") && url.host ≠ ""

/-- `regexp.QuoteMeta`. -/
def quoteMeta (s : String) : String :=
  String.ofList (s.toList.flatMap fun c =>
    if "\\.+*?()|[]\x7b\x7d^$".toList.contains c then ['\\', c] else [c])

def isWildcardOrigin : Bool :=
  (originURL opts origin).any fun url => hasPrefix url.host "*."

def buildOriginRegex : String :=
  match (originURL opts origin).filter fun url => hasPrefix url.host "*." with
  | some url =>
    "~^" ++ quoteMeta (url.scheme ++ "://") ++ "[^.]+\\." ++
      quoteMeta (String.ofList (trimPrefix url.host "*.")) ++ "$"
  | none => origin

def escapeNginxString (value : String) : String :=
  String.ofList (value.toList.flatMap fun c => if c = '\\' || c = '"' then ['\\', c] else [c])

def corsOriginParameter : Version2.Parameter :=
  if isWildcardOrigin opts origin then
    { value := buildOriginRegex opts origin, result := "$http_origin" }
  else
    { value := "\"" ++ escapeNginxString origin ++ "\"", result := escapeNginxString origin }

def generateCORSOriginMap (origins : List String) (variableName : String) : Version2.Map where
  source := "$http_origin"
  variableName := "$" ++ variableName
  parameters := { value := "default", result := "\"\"" } ::
    (origins.filter (· ≠ "")).map (corsOriginParameter opts)

def corsHeader (name value : String) : AddHeader where
  header := { name, value }
  always := true

def corsListHeader (name : String) (values : List String) : List AddHeader :=
  if values = [] then []
  else [corsHeader name (escapeNginxString (String.intercalate ", " values))]

def generateCORSHeaders (cors : CORS) (originValue : String) : List AddHeader :=
  (if cors.allowOrigin ≠ [] && cors.allowOrigin ≠ ["*"] then [corsHeader "Vary" "Origin"]
    else []) ++
  (if originValue ≠ "" then [corsHeader "Access-Control-Allow-Origin" originValue] else []) ++
  corsListHeader "Access-Control-Allow-Methods" cors.allowMethods ++
  corsListHeader "Access-Control-Allow-Headers" cors.allowHeaders ++
  (cors.allowCredentials.map fun b =>
    corsHeader "Access-Control-Allow-Credentials" (if b then "true" else "false")).toList ++
  corsListHeader "Access-Control-Expose-Headers" cors.exposeHeaders ++
  (cors.maxAge.map fun n => corsHeader "Access-Control-Max-Age" (toString n)).toList

/-- A later policy replaces the headers; the map of an earlier one stays. -/
def addCORSConfig (cors : CORS) (polKey : String) (owner : PolicyOwnerDetails) : PoliciesCfg :=
  let variableName := generateCORSVariableName polKey owner
  let mapped := { cfg with
    corsHeaders := generateCORSHeaders cors ("$" ++ variableName)
    corsMap := some (generateCORSOriginMap opts cors.allowOrigin variableName) }
  match cors.allowOrigin with
  | [] => { cfg with corsHeaders := generateCORSHeaders cors "" }
  | [origin] =>
    if origin = "*" then { cfg with corsHeaders := generateCORSHeaders cors "*" }
    else if !isWildcardOrigin opts origin then
      { cfg with corsHeaders := generateCORSHeaders cors (escapeNginxString origin) }
    else mapped
  | _ => mapped

def isPolicySupportedOnIngress (pol : Policy) : Bool :=
  pol.spec.accessControl.isSome || pol.spec.cors.isSome || pol.spec.externalAuth.isSome ||
    pol.spec.ingressMTLS.isSome || pol.spec.egressMTLS.isSome || pol.spec.waf.isSome ||
    pol.spec.oidcNative.isSome

structure PolicyContext where
  owner : PolicyOwnerDetails
  context : String
  path : String

variable (policies : GoMap Policy) (state : OidcState) (ctx : PolicyContext) (ref : PolicyReference)

def referencedNamespace : String :=
  if ref.nspace = "" then ctx.owner.ownerNamespace else ref.nspace

def referencedKey : String :=
  referencedNamespace ctx ref ++ "/" ++ ref.name

/-- The first kind of setting a policy has decides the step. -/
def addPolicyConfig (pol : Policy) (locations : OidcLocations) (cfg : PoliciesCfg) :
    Registered PoliciesCfg :=
  let key := referencedKey ctx ref
  let polNamespace := referencedNamespace ctx ref
  if let some s := pol.spec.accessControl then (locations, .ok (addAccessControlConfig cfg s))
  else if let some s := pol.spec.rateLimit then
    (locations, .ok (addRateLimitConfig opts cfg pol.objectMeta s ctx.owner ctx.context ctx.path))
  else if let some s := pol.spec.jwtAuth then
    (locations, addJWTAuthConfig opts cfg s key polNamespace)
  else if let some s := pol.spec.externalAuth then
    (locations, addExternalAuthConfig opts cfg s polNamespace ref.name ctx.owner)
  else if let some s := pol.spec.basicAuth then
    (locations, addBasicAuthConfig opts cfg s polNamespace)
  else if let some s := pol.spec.ingressMTLS then
    (locations, addIngressMTLSConfig opts cfg s polNamespace ctx.context)
  else if let some s := pol.spec.egressMTLS then
    (locations, addEgressMTLSConfig opts cfg s polNamespace)
  else if let some s := pol.spec.oidc then addOIDCConfig opts state locations cfg s key polNamespace
  else if let some s := pol.spec.oidcNative then
    addOIDCNativeConfig opts locations cfg s key polNamespace ctx.owner
  else if let some s := pol.spec.apiKey then
    (locations, addAPIKeyConfig opts cfg s key polNamespace ctx.owner ctx.context ctx.path)
  else if let some s := pol.spec.waf then (locations, addWAFConfig opts cfg s key polNamespace)
  else if let some s := pol.spec.wallarm then (locations, .ok (addWallarmConfig cfg s))
  else if let some s := pol.spec.cache then (locations, .ok (addCacheConfig cfg s ctx.owner))
  else if let some s := pol.spec.cors then (locations, .ok (addCORSConfig opts cfg s key ctx.owner))
  else if let some s := pol.spec.hsts then (locations, addHSTSConfig opts cfg s ctx.context)
  else (locations, .ok cfg)

/-- One reference: a missing policy and one an Ingress does not support are errors. -/
def addPolicy (locations : OidcLocations) (cfg : PoliciesCfg) : Registered PoliciesCfg :=
  match policies[referencedKey ctx ref]? with
  | none => (locations, .error .isError)
  | some pol =>
    if ctx.owner.parentType = "ing" && !isPolicySupportedOnIngress pol then
      (locations, .error .isError)
    else addPolicyConfig opts state ctx ref pol locations cfg

def addPolicies :
    List PolicyReference → OidcLocations → PoliciesCfg → Registered PoliciesCfg
  | [], locations, cfg => (locations, .ok cfg)
  | ref :: refs, locations, cfg =>
    match addPolicy opts policies state ctx ref locations cfg with
    | (locations, .ok cfg) => addPolicies refs locations cfg
    | (locations, .error failure) => (locations, .error failure)

/-- What a context with an error generates: nothing but the answer 500. -/
def errorPoliciesCfg : PoliciesCfg := { errorReturn := some { code := 500 } }

/-- The maps of the groups are made when all policies are added. -/
def finishPolicies (cfg : PoliciesCfg) : PoliciesCfg :=
  if cfg.rateLimit.policyGroupMaps = [] then cfg
  else
    let groups := generateLRZGroupMaps cfg.rateLimit.zones
    let maps := (opts.order.visit (.groups ctx.owner ctx.context ctx.path) groups.keys).filterMap
      fun k => groups[k]?
    match groupMaps maps with
    | none => errorPoliciesCfg
    | some maps => { cfg with rateLimit := { cfg.rateLimit with
        groupMaps := cfg.rateLimit.groupMaps ++ maps } }

/-- The settings of a context and the locations registered after it; `none` is a nil pointer. -/
def generatePolicies (policyRefs : List PolicyReference) : Option (PoliciesCfg × OidcLocations) :=
  match addPolicies opts policies state ctx policyRefs state.locations {} with
  | (_, .error .panic) => none
  | (locations, .error .isError) => some (errorPoliciesCfg, locations)
  | (locations, .ok cfg) => some (finishPolicies opts ctx cfg, locations)

end IngressController.Configs
