import IngressController.Api.Policy
import IngressController.Api.VirtualServer

/-! # The generated configuration

The types of `version2` as far as routing and policies use them. The settings that a
location takes over from its upstream or from the ConfigMap are not part of it.
-/

namespace IngressController.Version2

structure Parameter where
  value : String
  result : String

/-- `variableName` is the source's `Variable`, also below. -/
structure Map where
  source : String
  variableName : String
  parameters : List Parameter

structure Distribution where
  weight : String
  value : String

structure SplitClient where
  source : String
  variableName : String
  distributions : List Distribution

structure KeyValZone where
  name : String
  size : String
  state : String := ""
  sync : Bool := false
  timeout : String := ""

structure KeyVal where
  key : String
  variableName : String
  zoneName : String

structure TwoWaySplitClients where
  key : String
  variableName : String
  zoneName : String
  weights : List Int
  splitClientsIndex : Nat

structure InternalRedirectLocation where
  path : String
  destination : String

structure Return where
  code : Int := 0
  text : String := ""

/-- `ret` is the source's `Return`, also below. -/
structure ReturnLocation where
  name : String
  defaultType : String
  ret : Return
  headers : List Header

structure ErrorPage where
  name : String
  codes : String
  responseCode : Int

structure ErrorPageLocation where
  name : String
  defaultType : String
  ret : Return
  headers : List Header

structure LimitReqZone where
  key : String
  zoneName : String
  zoneSize : String
  rate : String
  groupValue : String := ""
  groupVariable : String := ""
  policyValue : String := ""
  policyResult : String := ""
  groupDefault : Bool := false
  groupSource : String := ""
  sync : Bool

structure LimitReq where
  zoneName : String
  burst : Int := 0
  noDelay : Bool := false
  delay : Int := 0

structure LimitReqOptions where
  dryRun : Bool := false
  logLevel : String := ""
  rejectCode : Int := 0

structure AuthJWTClaimSet where
  variableName : String
  claim : String

structure JwksURI where
  jwksScheme : String := ""
  jwksHost : String := ""
  jwksPort : String := ""
  jwksPath : String := ""
  jwksSNIName : String := ""
  jwksSNIEnabled : Bool := false
  sslVerify : Bool := false
  trustedCert : String := ""
  sslVerifyDepth : Int := 0

structure JWTAuth where
  key : String := ""
  secret : String := ""
  realm : String
  token : String
  keyCache : String := ""
  jwksURI : JwksURI := {}

structure AuthURI where
  service : String
  upstream : String
  port : String := ""
  path : String
  internalPath : String

structure ExternalAuth where
  uri : AuthURI
  signinURL : String := ""
  snippets : String := ""
  servicePorts : List Int
  signinRedirectBasePath : String := ""
  sslEnabled : Bool
  sslVerify : Bool := false
  sslVerifyDepth : Int := 0
  sslTrustedCert : String := ""
  sniName : String := ""

structure BasicAuth where
  secret : String
  realm : String

structure IngressMTLS where
  clientCert : String
  clientCrl : String := ""
  verifyClient : String
  verifyDepth : Int

structure EgressMTLS where
  certificate : String
  certificateKey : String
  verifyServer : Bool
  verifyDepth : Int
  ciphers : String
  protocols : String
  trustedCert : String
  sessionReuse : Bool
  serverName : Bool
  sslName : String

/-- `spec` holds the fields that are taken over unchanged, here and in `OIDCProvider`. -/
structure OIDC where
  spec : IngressController.OIDC
  clientSecret : String
  scope : String
  redirectURI : String
  postLogoutRedirectURI : String
  zoneSyncLeeway : Int
  authExtraArgs : String
  verifyDepth : Int
  caFile : String
  policyName : String

structure AuthOIDCReturnLocation where
  path : String
  defaultType : String
  ret : Return

structure OIDCProvider where
  name : String
  policyKey : String
  spec : OIDCNative
  clientSecret : String
  scope : String
  redirectURI : String
  cookieName : String
  sessionStore : String
  sync : Bool
  sslTrustedCert : String
  sslCrl : String
  sslVerify : Bool
  sslVerifyDepth : Int
  proxyLocation : String
  proxyBufferSize : String
  proxyTrustedCertPath : String
  postLogoutLocation : Option AuthOIDCReturnLocation

structure APIKey where
  header : List String
  query : List String
  mapName : String

structure WAF where
  enable : String
  apPolicy : String := ""
  apBundle : String := ""
  apSecurityLogEnable : Bool := false
  apLogConf : List String := []

/-- The type is shared with the Ingress templates; an application is its decimal text. -/
structure Wallarm where
  mode : String
  modeAllowOverride : String := ""
  fallback : String := ""
  application : String := ""
  partnerClientUUID : String := ""
  blockPage : String := ""
  parseResponse : String := ""
  parseWebsocket : String := ""
  unpackResponse : String := ""
  parserDisable : List String := []

/-- `spec` holds the fields that are taken over unchanged; the lock, the manager and the
conditions are among them. -/
structure Cache where
  zoneName : String
  cacheKey : String
  valid : GoMap String
  spec : IngressController.Cache

structure CacheZone where
  name : String
  size : String
  path : String
  cache : Cache

structure HSTS where
  maxAge : Int
  includeSubDomains : Bool
  behindProxy : Bool
  preload : Bool

structure Location where
  path : String
  internal : Bool := false
  snippets : List String := []
  proxyPass : String := ""
  proxyInterceptErrors : Bool := false
  proxyPassRequestHeaders : Bool := false
  proxySetHeaders : List Header := []
  proxyHideHeaders : List String := []
  proxyPassHeaders : List String := []
  proxyIgnoreHeaders : String := ""
  proxyPassRewrite : String := ""
  addHeaders : List AddHeader := []
  rewrites : List String := []
  errorPages : List ErrorPage := []
  proxySSLName : String := ""
  internalProxyPass : String := ""
  serviceName : String := ""
  isVSR : Bool := false
  vsrName : String := ""
  vsrNamespace : String := ""
  grpcPass : String := ""
  addHeaderInherit : String := ""
  authRequestOff : Bool := false
  allow : List String := []
  deny : List String := []
  limitReqOptions : LimitReqOptions := {}
  limitReqs : List LimitReq := []
  jwtAuth : Option JWTAuth := none
  oidcProviderName : String := ""
  externalAuth : Option ExternalAuth := none
  basicAuth : Option BasicAuth := none
  egressMTLS : Option EgressMTLS := none
  hsts : Option HSTS := none
  oidc : Bool := false
  apiKey : Option APIKey := none
  waf : Option WAF := none
  wallarm : Option Wallarm := none
  policiesErrorReturn : Option Return := none
  cache : Option Cache := none
  corsEnabled : Bool := false
  proxyPassRequestBody : String := ""
  proxySSLVerify : Bool := false
  proxySSLVerifyDepth : Int := 0
  proxySSLTrustedCertificate : String := ""

structure Upstream where
  name : String
  servers : List String
  backupServers : List String
  resolve : Bool

structure SSL where
  http2 : Bool
  certificate : String
  certificateKey : String
  rejectHandshake : Bool

structure Server where
  serverName : String
  ssl : Option SSL
  internalRedirectLocations : List InternalRedirectLocation
  locations : List Location
  returnLocations : List ReturnLocation
  errorPageLocations : List ErrorPageLocation
  allow : List String
  deny : List String
  limitReqOptions : LimitReqOptions
  limitReqs : List LimitReq
  jwtAuth : Option JWTAuth
  externalAuth : Option ExternalAuth
  errorPages : List ErrorPage
  basicAuth : Option BasicAuth
  jwtAuthList : GoMap JWTAuth
  jwksAuthEnabled : Bool
  ingressMTLS : Option IngressMTLS
  egressMTLS : Option EgressMTLS
  apiKey : Option APIKey
  apiKeyEnabled : Bool
  oidc : Option OIDC
  oidcProviderName : String
  waf : Option WAF
  cache : Option Cache
  hsts : Option HSTS
  policiesErrorReturn : Option Return
  vsNamespace : String
  vsName : String

structure VirtualServerConfig where
  upstreams : List Upstream
  maps : List Map
  limitReqZones : List LimitReqZone
  authJWTClaimSets : List AuthJWTClaimSet
  oidcProviders : List OIDCProvider
  cacheZones : List CacheZone
  splitClients : List SplitClient
  keyValZones : List KeyValZone
  keyVals : List KeyVal
  twoWaySplitClients : List TwoWaySplitClients
  server : Server

end IngressController.Version2
