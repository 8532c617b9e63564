import IngressController.Generator.PolicyConfig

/-! # Policies that authenticate

One step for each kind of policy. A second policy of a kind is ignored in most steps; a second
API key policy is an error.
-/

namespace IngressController.Configs

open GoString

def jwksURIOf (jwtAuth : JWTAuth) (uri : URL) (trustedCert : String) : Version2.JwksURI where
  jwksScheme := uri.scheme
  jwksHost := uri.hostname
  jwksPort := uri.port
  jwksPath := uri.path
  jwksSNIName := jwtAuth.sniName
  jwksSNIEnabled := jwtAuth.sniEnabled
  sslVerify := jwtAuth.sslVerify
  trustedCert
  sslVerifyDepth := jwtAuth.sslVerifyDepth.getD 1

variable (opts : PolicyOptions)

/-- The certificate that verifies the server of the keys, if it is verified. -/
def jwksTrustedCert (jwtAuth : JWTAuth) (polNamespace : String) : Added String :=
  if jwtAuth.sslVerify && jwtAuth.trustedCertSecret ≠ "" then
    trustedCertPath opts (polNamespace ++ "/" ++ jwtAuth.trustedCertSecret) ""
  else .ok ""

variable (cfg : PoliciesCfg)

/-- The error of parsing a URI is dropped, so an unparsable one is a nil pointer. The certificate
is looked up before the URI is read. -/
def addJWTAuthConfig (jwtAuth : JWTAuth) (polKey polNamespace : String) : Added PoliciesCfg :=
  if cfg.jwtAuth.auth.isSome then .ok cfg
  else if jwtAuth.secret ≠ "" then do
    let ref ← deref opts.secretRefs[polNamespace ++ "/" ++ jwtAuth.secret]?
    let ref ← checkSecret ref .jwk
    .ok { cfg with jwtAuth := { cfg.jwtAuth with
      auth := some { secret := ref.path, realm := jwtAuth.realm, token := jwtAuth.token } } }
  else if jwtAuth.jwksURI ≠ "" then do
    let trustedCert ← jwksTrustedCert opts jwtAuth polNamespace
    let uri ← deref (opts.parseURL jwtAuth.jwksURI)
    .ok { cfg with jwtAuth := { cfg.jwtAuth with
      auth := some {
        key := polKey
        jwksURI := jwksURIOf jwtAuth uri trustedCert
        realm := jwtAuth.realm
        token := jwtAuth.token
        keyCache := jwtAuth.keyCache }
      jwksEnabled := true } }
  else .ok cfg

def addBasicAuthConfig (basicAuth : BasicAuth) (polNamespace : String) : Added PoliciesCfg :=
  if cfg.basicAuth.isSome then .ok cfg
  else do
    let ref ← deref opts.secretRefs[polNamespace ++ "/" ++ basicAuth.secret]?
    let ref ← checkSecret ref .htpasswd
    .ok { cfg with basicAuth := some { secret := ref.path, realm := basicAuth.realm } }

def defaultSigninRedirectBasePath : String := "/oauth2"

/-- The upstream of the auth service. Only an Ingress puts its own names into it. -/
def externalAuthUpstreamName (owner : PolicyOwnerDetails) (polNamespace polName : String) :
    String :=
  if owner.parentType = "ing" then
    "ing_" ++ owner.parentNamespace ++ "_" ++ owner.parentName ++ "_exauth_" ++ polNamespace ++
      "_" ++ polName
  else owner.parentType ++ "_exauth_" ++ polNamespace ++ "_" ++ polName

def externalAuthInternalPath (authURI : String) : String := "/_external_auth" ++ authURI

variable (externalAuth : ExternalAuth)

def externalAuthOf (upstream : String) : Version2.ExternalAuth where
  uri := {
    service := externalAuth.authServiceName
    upstream
    path := externalAuth.authURI
    internalPath := externalAuthInternalPath externalAuth.authURI }
  servicePorts := externalAuth.authServicePorts
  sslEnabled := externalAuth.sslEnabled
  signinURL := externalAuth.authSigninURI
  signinRedirectBasePath :=
    if externalAuth.authSigninURI = "" then ""
    else generateString externalAuth.authSigninRedirectBasePath defaultSigninRedirectBasePath
  snippets := externalAuth.authSnippets

def externalAuthSNIName (polNamespace : String) : String :=
  if externalAuth.sniName ≠ "" then externalAuth.sniName
  else
    let (svcNs, svcName) := parseServiceReference externalAuth.authServiceName polNamespace
    svcName ++ "." ++ svcNs ++ ".svc"

def externalAuthTrustedCert (polNamespace : String) : Added String :=
  if externalAuth.trustedCertSecret ≠ "" then
    let (secretNS, secretName) := parseResourceReference externalAuth.trustedCertSecret polNamespace
    trustedCertPath opts (secretNS ++ "/" ++ secretName) opts.defaultCABundle
  else .ok opts.defaultCABundle

def configureExternalAuthSSL (auth : Version2.ExternalAuth)
    (externalAuth : ExternalAuth) (polNamespace : String) : Added Version2.ExternalAuth := do
  let sslTrustedCert ← externalAuthTrustedCert opts externalAuth polNamespace
  .ok { auth with
    sslVerify := true
    sslVerifyDepth := externalAuth.sslVerifyDepth.getD 1
    sslTrustedCert
    sniName := externalAuthSNIName externalAuth polNamespace }

/-- The settings of an authentication, with those for a verified connection if it is one. -/
def externalAuthSettings
    (polNamespace polName : String) (owner : PolicyOwnerDetails) : Added Version2.ExternalAuth :=
  let auth := externalAuthOf externalAuth (externalAuthUpstreamName owner polNamespace polName)
  if externalAuth.sslEnabled && externalAuth.sslVerify then
    configureExternalAuthSSL opts auth externalAuth polNamespace
  else .ok auth

def addExternalAuthConfig
    (polNamespace polName : String) (owner : PolicyOwnerDetails) : Added PoliciesCfg :=
  if cfg.externalAuth.isSome then .ok cfg
  else do
    let auth ← externalAuthSettings opts externalAuth polNamespace polName owner
    .ok { cfg with externalAuth := some auth }

def generateAPIKeyClients (loop : PolicyLoop) (data : GoMap String) : List ApiKeyClient :=
  (opts.order.visit loop data.keys).filterMap fun clientID =>
    data[clientID]?.map fun apiKey => { clientID, hashedKey := opts.sha256Hex apiKey }

/-- The second piece of the policy's key, its name; the key has a slash. -/
def policyNameOfKey (polKey : String) : Added String :=
  deref (split (rfc1123ToSnake polKey) '/')[1]?

/-- The name holds the name of the policy but not its namespace. -/
def apiKeyMapName (owner : PolicyOwnerDetails) (snakeName : String) : String :=
  "apikey_auth_client_name_" ++ rfc1123ToSnake owner.parentNamespace ++ "_" ++
    rfc1123ToSnake owner.parentName ++ "_" ++ rfc1123ToSnake owner.parentType ++ "_" ++ snakeName

def addAPIKeyConfig (apiKey : APIKey)
    (polKey polNamespace : String) (owner : PolicyOwnerDetails) (context path : String) :
    Added PoliciesCfg :=
  if cfg.apiKey.key.isSome then .error .isError
  else do
    let ref ← deref opts.secretRefs[polNamespace ++ "/" ++ apiKey.clientSecret]?
    let ref ← checkSecret ref .apiKey
    let secret ← deref ref.secret
    let snakeName ← policyNameOfKey polKey
    let suppliedIn ← deref apiKey.suppliedIn
    .ok { cfg with apiKey := { cfg.apiKey with
      clients := generateAPIKeyClients opts (.clients owner context path polKey) secret.data
      key := some {
        header := suppliedIn.header
        query := suppliedIn.query
        mapName := apiKeyMapName owner snakeName }
      enabled := true } }

def caCrlKey : String := "ca.crl"

def defaultSecretPath : String := "/etc/nginx/secrets"

/-- `path.Base`. -/
def pathBase (p : String) : String :=
  if p = "" then "."
  else
    match (p.toList.reverse.dropWhile (· = '/')).takeWhile (· ≠ '/') with
    | [] => "/"
    | base => String.ofList base.reverse

/-- `path.Join(DefaultSecretPath, base)` of a base. -/
def joinSecretPath (base : String) : String :=
  if base = "." || base = "/" then defaultSecretPath
  else if base = ".." then "/etc/nginx"
  else defaultSecretPath ++ "/" ++ base

/-- The revocation list: a file named by the policy, or the second file of the secret. -/
def ingressMTLSCrl (ingressMTLS : IngressMTLS) (secret : Secret) (caFields : List (List Char)) :
    Added String :=
  if ingressMTLS.crlFileName ≠ "" then .ok (joinSecretPath (pathBase ingressMTLS.crlFileName))
  else if secret.data.contains caCrlKey then (deref caFields[1]?).map String.ofList
  else .ok ""

def addIngressMTLSConfig (ingressMTLS : IngressMTLS)
    (polNamespace context : String) : Added PoliciesCfg :=
  if context ≠ specContext then .error .isError
  else if !opts.tls then .error .isError
  else if cfg.ingressMTLS.isSome then .ok cfg
  else do
    let ref ← orError opts.secretRefs[polNamespace ++ "/" ++ ingressMTLS.clientCertSecret]?
    let ref ← checkSecret ref .ca
    let secret ← deref ref.secret
    let caFields := fields ref.path.toList
    let clientCert ← deref caFields[0]?
    let clientCrl ← ingressMTLSCrl ingressMTLS secret caFields
    .ok { cfg with ingressMTLS := some {
      clientCert := String.ofList clientCert
      clientCrl
      verifyClient := generateString ingressMTLS.verifyClient "on"
      verifyDepth := ingressMTLS.verifyDepth.getD 1 } }

/-- The path of an optional secret of an upstream connection. -/
def egressSecretPath (polNamespace name : String) (type : SecretType) : Added String :=
  if name = "" then .ok ""
  else do
    let ref ← orError opts.secretRefs[polNamespace ++ "/" ++ name]?
    let ref ← checkSecret ref type
    .ok ref.path

def egressTrustedCert (trustedSecretPath : String) : Added String :=
  if trustedSecretPath = "" then .ok ""
  else (deref (fields trustedSecretPath.toList)[0]?).map String.ofList

def addEgressMTLSConfig (egressMTLS : EgressMTLS) (polNamespace : String) : Added PoliciesCfg :=
  if cfg.egressMTLS.isSome then .ok cfg
  else do
    let tlsSecretPath ← egressSecretPath opts polNamespace egressMTLS.tlsSecret .tls
    let trustedSecretPath ← egressSecretPath opts polNamespace egressMTLS.trustedCertSecret .ca
    let trustedCert ← egressTrustedCert trustedSecretPath
    .ok { cfg with egressMTLS := some {
      certificate := tlsSecretPath
      certificateKey := tlsSecretPath
      ciphers := generateString egressMTLS.ciphers "DEFAULT"
      protocols := generateString egressMTLS.protocols "TLSv1 TLSv1.1 TLSv1.2"
      verifyServer := egressMTLS.verifyServer
      verifyDepth := egressMTLS.verifyDepth.getD 1
      sessionReuse := egressMTLS.sessionReuse.getD true
      serverName := egressMTLS.serverName
      trustedCert
      sslName := generateString egressMTLS.sslName "$proxy_host" } }

end IngressController.Configs
