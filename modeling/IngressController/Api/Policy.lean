import IngressController.Api.Meta

/-! # Policies

The specification of a Policy has at most one of the settings below; which one counts when there
are several is decided where policies are generated.
-/

namespace IngressController

structure AccessControl where
  allow : List String := []
  deny : List String := []

structure JWTCondition where
  claim : String
  matchValue : String

structure VariableCondition where
  name : String
  matchValue : String

/-- `variableConditions` and `isDefault` are `Variables` and `Default` of the source, `matchValue`
above its `Match`. -/
structure RateLimitCondition where
  jwt : Option JWTCondition := none
  variableConditions : Option (List VariableCondition) := none
  isDefault : Bool := false

structure RateLimit where
  rate : String
  key : String
  delay : Option Int := none
  noDelay : Option Bool := none
  burst : Option Int := none
  zoneSize : String := ""
  dryRun : Option Bool := none
  logLevel : String := ""
  rejectCode : Option Int := none
  scale : Bool := false
  condition : Option RateLimitCondition := none

structure JWTAuth where
  realm : String := ""
  secret : String := ""
  token : String := ""
  jwksURI : String := ""
  keyCache : String := ""
  sniEnabled : Bool := false
  sniName : String := ""
  sslVerify : Bool := false
  trustedCertSecret : String := ""
  sslVerifyDepth : Option Int := none

structure BasicAuth where
  realm : String := ""
  secret : String := ""

structure ExternalAuth where
  authURI : String
  authServiceName : String
  authServicePorts : List Int := []
  authSigninURI : String := ""
  authSnippets : String := ""
  authSigninRedirectBasePath : String := ""
  sslEnabled : Bool := false
  sslVerify : Bool := false
  sslVerifyDepth : Option Int := none
  trustedCertSecret : String := ""
  sniName : String := ""

structure SuppliedIn where
  header : List String := []
  query : List String := []

structure APIKey where
  suppliedIn : Option SuppliedIn := none
  clientSecret : String := ""

structure OIDC where
  authEndpoint : String := ""
  tokenEndpoint : String := ""
  jwksURI : String := ""
  clientID : String := ""
  clientSecret : String := ""
  scope : String := ""
  redirectURI : String := ""
  endSessionEndpoint : String := ""
  postLogoutRedirectURI : String := ""
  zoneSyncLeeway : Option Int := none
  authExtraArgs : List String := []
  accessTokenEnable : Bool := false
  pkceEnable : Bool := false
  sslVerify : Bool := false
  trustedCertSecret : String := ""
  sslVerifyDepth : Option Int := none

structure OIDCNative where
  issuer : String := ""
  clientID : String := ""
  clientSecret : String := ""
  configURL : String := ""
  scope : String := ""
  redirectURI : String := ""
  cookieName : String := ""
  extraAuthArgs : String := ""
  pkce : String := ""
  logoutURI : String := ""
  postLogoutRedirectURI : String := ""
  frontChannelLogoutURI : String := ""
  logoutTokenHint : Bool := false
  sessionTimeout : String := ""
  userInfoEnable : Bool := false
  trustedCertSecret : String := ""
  sslVerify : Option Bool := none
  sslName : String := ""
  sslVerifyDepth : Option Int := none
  proxyBufferSize : String := ""

structure IngressMTLS where
  clientCertSecret : String
  crlFileName : String := ""
  verifyClient : String := ""
  verifyDepth : Option Int := none

structure EgressMTLS where
  tlsSecret : String := ""
  verifyServer : Bool := false
  verifyDepth : Option Int := none
  protocols : String := ""
  sessionReuse : Option Bool := none
  ciphers : String := ""
  trustedCertSecret : String := ""
  serverName : Bool := false
  sslName : String := ""

structure HSTS where
  maxAge : Option Int := none
  includeSubDomains : Bool := false
  behindProxy : Bool := false
  preload : Bool := false

/-- `hasLogBundleSource` tells whether a bundle source is set, like `hasBundleSource` below. -/
structure SecurityLog where
  apLogConf : String := ""
  apLogBundle : String := ""
  hasLogBundleSource : Bool := false
  logDest : String := ""

/-- A nil list of logs is `none`. -/
structure WAF where
  enable : Bool := false
  apPolicy : String := ""
  apBundle : String := ""
  hasBundleSource : Bool := false
  securityLog : Option SecurityLog := none
  securityLogs : Option (List SecurityLog) := none

structure Wallarm where
  mode : String
  modeAllowOverride : String := ""
  fallback : String := ""
  application : Option Int := none
  partnerClientUUID : String := ""
  blockPage : String := ""
  parseResponse : String := ""
  parseWebsocket : String := ""
  unpackResponse : String := ""
  parserDisable : List String := []

/-! ## Caches and CORS -/

inductive IntOrString where
  | int (n : Int)
  | str (s : String)

structure CacheManager where
  files : Option Int := none
  sleep : String := ""
  threshold : String := ""

structure CacheLock where
  enable : Bool := false
  timeout : String := ""
  age : String := ""

structure CacheConditions where
  noCache : List String := []
  bypass : List String := []

structure Cache where
  cacheZoneName : String
  cacheZoneSize : String := ""
  allowedCodes : List IntOrString := []
  allowedMethods : List String := []
  time : String := ""
  cachePurgeAllow : List String := []
  overrideUpstreamCache : Bool := false
  levels : String := ""
  inactive : String := ""
  useTempPath : Bool := false
  maxSize : String := ""
  minFree : String := ""
  manager : Option CacheManager := none
  cacheKey : String := ""
  cacheUseStale : List String := []
  cacheRevalidate : Bool := false
  cacheBackgroundUpdate : Bool := false
  cacheMinUses : Option Int := none
  lock : Option CacheLock := none
  conditions : Option CacheConditions := none

structure CORS where
  allowOrigin : List String := []
  allowMethods : List String := []
  allowHeaders : List String := []
  allowCredentials : Option Bool := none
  exposeHeaders : List String := []
  maxAge : Option Int := none

structure PolicySpec where
  ingressClass : String := ""
  accessControl : Option AccessControl := none
  rateLimit : Option RateLimit := none
  jwtAuth : Option JWTAuth := none
  basicAuth : Option BasicAuth := none
  ingressMTLS : Option IngressMTLS := none
  egressMTLS : Option EgressMTLS := none
  oidc : Option OIDC := none
  oidcNative : Option OIDCNative := none
  waf : Option WAF := none
  wallarm : Option Wallarm := none
  apiKey : Option APIKey := none
  cache : Option Cache := none
  cors : Option CORS := none
  externalAuth : Option ExternalAuth := none
  hsts : Option HSTS := none

structure Policy where
  objectMeta : ObjectMeta
  spec : PolicySpec

inductive SecretType where
  | tls
  | ca
  | jwk
  | htpasswd
  | oidc
  | apiKey
  | other (s : String)
deriving DecidableEq

/-- A secret; an empty type is `none`. -/
structure Secret where
  type : Option SecretType
  data : GoMap String := ∅

/-- What the secret store knows about a secret and where its file is. -/
structure SecretReference where
  secret : Option Secret := none
  path : String := ""
  error : Option String := none

end IngressController
