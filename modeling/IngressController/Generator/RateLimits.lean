import IngressController.Generator.PolicyConfig

/-! # Rate limits

A rate limit with a condition is one tier of a group. Two maps lead to the key of its zone: the
group's map takes the claim or variable to the value of a tier, and the map of the tier takes that
value to a key and every other value to the empty text.
-/

namespace IngressController.Configs

open GoString
open Version2 (LimitReqZone Map)

variable (claim : String)

def joinClaim (sep : String) : String := String.intercalate sep (split claim '.')

def generateAuthJwtClaimSetVariable (owner : PolicyOwnerDetails) : String :=
  replaceAll ("$jwt_" ++ owner.parentNamespace ++ "_" ++ owner.parentName ++ "_" ++
    owner.parentType ++ "_" ++ joinClaim claim "_") '-' '_'

def generateAuthJwtClaimSetClaim : String := joinClaim claim " "

def generateAuthJwtClaimSet (jwtCondition : JWTCondition) (owner : PolicyOwnerDetails) :
    Version2.AuthJWTClaimSet where
  variableName := generateAuthJwtClaimSetVariable jwtCondition.claim owner
  claim := generateAuthJwtClaimSetClaim jwtCondition.claim

def generateLimitReq (zoneName : String) (rateLimitPol : RateLimit) : Version2.LimitReq :=
  let noDelay := rateLimitPol.noDelay.getD false
  { zoneName
    burst := rateLimitPol.burst.getD 0
    noDelay
    delay := if noDelay then 0 else rateLimitPol.delay.getD 0 }

def generateLimitReqOptions (rateLimitPol : RateLimit) : Version2.LimitReqOptions where
  dryRun := rateLimitPol.dryRun.getD false
  logLevel := generateString rateLimitPol.logLevel "error"
  rejectCode := rateLimitPol.rejectCode.getD 503

variable (opts : PolicyOptions) (owner : PolicyOwnerDetails)

def generateLimitReqZone (zoneName : String) (rateLimitPol : RateLimit) :
    LimitReqZone where
  zoneName
  key := rateLimitPol.key
  zoneSize := rateLimitPol.zoneSize
  rate :=
    if rateLimitPol.scale && !opts.zoneSync then
      opts.scaleRatelimit rateLimitPol.rate opts.replicas
    else rateLimitPol.rate
  sync := opts.zoneSync

/-- `rl_<namespace>_<name>_<type>`, which the names of groups and tiers begin with. -/
def rateLimitHead : String :=
  "rl_" ++ owner.parentNamespace ++ "_" ++ owner.parentName ++ "_" ++ owner.parentType

def jwtGroupVariable (claim context path : String) : String :=
  rfc1123ToSnake ("$" ++ rateLimitHead owner ++ "_group_" ++ opts.lower (joinClaim claim "_") ++
    "_" ++ context ++ "_" ++ base64URLEncode path)

def jwtPolicyValue (matchValue : String) : String :=
  rateLimitHead owner ++ "_match_" ++ opts.lower matchValue

def variableGroupVariable (name context path : String) : String :=
  rfc1123ToSnake ("$" ++ rateLimitHead owner ++ "_variable_" ++
    String.ofList (name.toList.filter (· ≠ '$')) ++ "_" ++ context ++ "_" ++ base64URLEncode path)

def variablePolicyValue (policyName : String) : String :=
  rfc1123ToSnake (rateLimitHead owner ++ "_match_" ++ opts.lower policyName)

/-- A variable takes precedence over a claim, and only the first variable counts. -/
def generateGroupedLimitReqZone (zoneName policyName : String)
    (rateLimitPol : RateLimit) (condition : RateLimitCondition) (owner : PolicyOwnerDetails)
    (context path : String) : LimitReqZone :=
  let lrz := generateLimitReqZone opts zoneName rateLimitPol
  match condition.variableConditions.getD [], condition.jwt with
  | condVariable :: _, _ => { lrz with
      groupValue := "\"" ++ condVariable.matchValue ++ "\""
      policyValue := variablePolicyValue opts owner policyName
      groupVariable := variableGroupVariable owner condVariable.name context path
      key := rfc1123ToSnake ("$" ++ zoneName)
      policyResult := rateLimitPol.key
      groupDefault := condition.isDefault
      groupSource := condVariable.name }
  | [], some jwt => { lrz with
      groupValue := jwt.matchValue
      policyValue := jwtPolicyValue opts owner jwt.matchValue
      groupVariable := jwtGroupVariable opts owner jwt.claim context path
      key := rfc1123ToSnake ("$" ++ zoneName)
      policyResult := rateLimitPol.key
      groupDefault := condition.isDefault
      groupSource := generateAuthJwtClaimSetVariable jwt.claim owner }
  | [], none => lrz

/-- The entries a tier adds to the map of its group. -/
def groupParameters (lrz : LimitReqZone) : List Version2.Parameter :=
  { value := lrz.groupValue, result := lrz.policyValue } ::
    if lrz.groupDefault then [{ value := "default", result := lrz.policyValue }] else []

/-- One tier: its entries go in front of those of its group, and its source replaces theirs. -/
def addToGroup (m : GoMap Map) (lrz : LimitReqZone) : GoMap Map :=
  if lrz.groupVariable ≠ "" then
    m.insert lrz.groupVariable {
      source := lrz.groupSource
      variableName := lrz.groupVariable
      parameters := groupParameters lrz ++
        ((m[lrz.groupVariable]?).map Version2.Map.parameters).getD [] }
  else m

def generateLRZGroupMaps (rlzs : List LimitReqZone) : GoMap Map :=
  rlzs.foldl addToGroup ∅

def generateLRZPolicyGroupMap (lrz : LimitReqZone) : Map where
  source := lrz.groupVariable
  variableName := "$" ++ rfc1123ToSnake lrz.zoneName
  parameters := [
    { value := "default", result := "''" },
    { value := lrz.policyValue, result := "Val" ++ lrz.policyResult }]

def hasDuplicateMapDefaults (m : Map) : Bool :=
  (m.parameters.filter (·.value = "default")).length > 1

/-- The maps of all groups, or `none` when a group has two defaults. -/
def groupMaps (maps : List Map) : Option (List Map) :=
  if maps.any hasDuplicateMapDefaults then none else some maps

def rateLimitZoneName (policy : ObjectMeta) (owner : PolicyOwnerDetails) : String :=
  let name := rfc1123ToSnake ("pol_rl_" ++ policy.nspace.val ++ "_" ++ policy.name.val ++ "_" ++
    owner.parentNamespace ++ "_" ++ owner.parentName ++ "_" ++ owner.parentType)
  if opts.zoneSync then name ++ "_sync" else name

/-- The claim set a condition needs. -/
def claimSetsOf (condition : RateLimitCondition) (owner : PolicyOwnerDetails) :
    List Version2.AuthJWTClaimSet :=
  match condition.jwt with
  | some jwt =>
    if jwt.claim ≠ "" && jwt.matchValue ≠ "" then [generateAuthJwtClaimSet jwt owner] else []
  | none => []

/-- The options of the first rate limit of a context hold for all of them. -/
def RateLimitCfg.addReq (rl : RateLimitCfg) (zoneName : String) (rateLimit : RateLimit) :
    RateLimitCfg :=
  { rl with
    reqs := rl.reqs ++ [generateLimitReq zoneName rateLimit]
    options := if rl.reqs = [] then generateLimitReqOptions rateLimit else rl.options }

def addRateLimitConfig (cfg : PoliciesCfg) (policy : ObjectMeta)
    (rateLimit : RateLimit) (owner : PolicyOwnerDetails) (context path : String) : PoliciesCfg :=
  let zoneName := rateLimitZoneName opts policy owner
  let rl := cfg.rateLimit
  let rl := match rateLimit.condition with
    | some condition =>
      let lrz := generateGroupedLimitReqZone opts zoneName policy.name.val rateLimit condition
        owner context path
      { rl with
        policyGroupMaps := rl.policyGroupMaps ++ [generateLRZPolicyGroupMap lrz]
        authJWTClaimSets := rl.authJWTClaimSets ++ claimSetsOf condition owner
        zones := rl.zones ++ [lrz] }
    | none => { rl with zones := rl.zones ++ [generateLimitReqZone opts zoneName rateLimit] }
  { cfg with rateLimit := rl.addReq zoneName rateLimit }

end IngressController.Configs
