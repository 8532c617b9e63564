import IngressController.Generator.Locations
import IngressController.Library.GoPanic

/-! # What policies add to a configuration

`PoliciesCfg` collects the settings of all policies of one context: a VirtualServer, one of its
routes, a subroute or an Ingress. Each policy is added by a step that may report an error, which
discards the whole collection, or dereference a nil pointer. Warnings are not part of the model.
-/

namespace IngressController.Configs

open GoString

structure RateLimitCfg where
  reqs : List Version2.LimitReq := []
  zones : List Version2.LimitReqZone := []
  groupMaps : List Version2.Map := []
  policyGroupMaps : List Version2.Map := []
  options : Version2.LimitReqOptions := {}
  authJWTClaimSets : List Version2.AuthJWTClaimSet := []

structure JWTAuthCfg where
  auth : Option Version2.JWTAuth := none
  list : GoMap Version2.JWTAuth := ∅
  jwksEnabled : Bool := false

structure ApiKeyClient where
  clientID : String
  hashedKey : String

structure ApiKeyAuth where
  enabled : Bool := false
  key : Option Version2.APIKey := none
  clients : List ApiKeyClient := []
  clientMap : GoMap (List ApiKeyClient) := ∅

structure PoliciesCfg where
  allow : List String := []
  deny : List String := []
  rateLimit : RateLimitCfg := {}
  jwtAuth : JWTAuthCfg := {}
  externalAuth : Option Version2.ExternalAuth := none
  basicAuth : Option Version2.BasicAuth := none
  ingressMTLS : Option Version2.IngressMTLS := none
  egressMTLS : Option Version2.EgressMTLS := none
  oidc : Option Version2.OIDC := none
  oidcProvider : Option Version2.OIDCProvider := none
  apiKey : ApiKeyAuth := {}
  waf : Option Version2.WAF := none
  wallarm : Option Version2.Wallarm := none
  cache : Option Version2.Cache := none
  corsHeaders : List AddHeader := []
  corsMap : Option Version2.Map := none
  hsts : Option Version2.HSTS := none
  errorReturn : Option Version2.Return := none

/-- The object whose context is generated; only the parent's names go into generated names. -/
structure PolicyOwnerDetails where
  ownerName : String
  ownerNamespace : String
  parentNamespace : String
  parentName : String
  parentType : String

def specContext : String := "spec"
def routeContext : String := "route"
def subRouteContext : String := "subroute"

/-- `net/url.URL` as far as it is read. -/
structure URL where
  scheme : String
  host : String
  hostname : String
  port : String
  path : String

structure AppProtectPolicyResources where
  policies : GoMap String := ∅
  logConfs : GoMap String := ∅

/-- The loops over maps in the generation of policies, by the context they stand in. -/
inductive PolicyLoop where
  | clients (owner : PolicyOwnerDetails) (pathContext path key : String)
  | groups (owner : PolicyOwnerDetails) (pathContext path : String)
  | clientMaps

/-- The options that are the same for all contexts of an object. The library functions are
`net/url.Parse`, `strings.ToLower`, SHA-256 in hexadecimal, `unicode.IsPrint`, the division of a
rate by the number of replicas and the look-up of a bundle file. -/
structure PolicyOptions where
  tls : Bool := false
  zoneSync : Bool := false
  secretRefs : GoMap SecretReference := ∅
  apResources : AppProtectPolicyResources := {}
  defaultCABundle : String := ""
  replicas : Nat := 1
  plmEnabled : Bool := false
  parseURL : String → Option URL
  lower : String → String
  sha256Hex : String → String
  isPrint : Char → Bool
  scaleRatelimit : String → Nat → String
  validateBundle : String → Option String
  order : IterOrder PolicyLoop String

/-- Which provider and role claimed a generated location first. -/
structure OidcNativeLocationOwner where
  provider : String
  role : String
deriving DecidableEq

abbrev OidcLocations := GoMap OidcNativeLocationOwner

/-- What contexts hand on to later ones of the same VirtualServer. -/
structure OidcState where
  policyName : String := ""
  config : Option Version2.OIDC := none
  locations : OidcLocations := ∅

inductive Failure where
  | panic
  | isError

abbrev Added (α : Type) := Except Failure α

def deref {α : Type} : Option α → Added α
  | some a => .ok a
  | none => .error .panic

/-- A missing or bad object that is reported. -/
def orError {α : Type} : Option α → Added α
  | some a => .ok a
  | none => .error .isError

/-- The check all kinds of policies make: a wrong type unless the type is empty, or an error. -/
def isInvalidSecret (ref : SecretReference) (type : SecretType) : Bool :=
  ((ref.secret.bind Secret.type).any (· ≠ type)) || ref.error.isSome

def checkSecret (ref : SecretReference) (type : SecretType) : Added SecretReference :=
  if isInvalidSecret ref type then .error .isError else .ok ref

def generateString (s defaultS : String) : String := if s = "" then defaultS else s

def rfc1123ToSnake (s : String) : String := replaceAll s '-' '_'

/-- The first field of a path, which may name a second file after it. -/
def firstField (path default : String) : String :=
  match fields path.toList with
  | [] => default
  | field :: _ => String.ofList field

/-- The certificate of an optional CA secret; a missing reference is an error. -/
def trustedCertPath (opts : PolicyOptions) (key default : String) : Added String := do
  let ref ← orError opts.secretRefs[key]?
  let ref ← checkSecret ref .ca
  .ok (firstField ref.path default)

end IngressController.Configs
