import IngressController.Generator.PolicyConfig

/-! # OpenID Connect policies

Both implementations generate locations at exact paths and register them, so that no two policies
of a VirtualServer claim one path. What is registered stays so even when a later check fails.
-/

namespace IngressController.Configs

open GoString

def clientSecretKey : String := "client-secret"

/-- The registered locations, and the policies' settings unless the step failed. -/
abbrev Registered (α : Type) := OidcLocations × Added α

def njsOwner (redirectURI path : String) : OidcNativeLocationOwner where
  provider := "njs"
  role := if path = redirectURI then "callback" else "njs-reserved"

def njsLocations (redirectURI : String) : List String :=
  [redirectURI, "/_jwks_uri", "/_token", "/_refresh", "/_token_validation", "/logout",
    "/front_channel_logout", "/_logout"]

def njsConflict (locations : OidcLocations) (redirectURI : String) : Bool :=
  (njsLocations redirectURI).any fun path =>
    locations[path]?.any (· ≠ njsOwner redirectURI path)

def registerNjs (locations : OidcLocations) (redirectURI : String) : OidcLocations :=
  (njsLocations redirectURI).foldl (fun m path => m.insert path (njsOwner redirectURI path))
    locations

variable (opts : PolicyOptions) (oidc : OIDC)

/-- A client secret is required without PKCE and refused with it. -/
def oidcClientSecret (polNamespace : String) : Added String :=
  match opts.secretRefs[polNamespace ++ "/" ++ oidc.clientSecret]? with
  | some ref =>
    if (ref.secret.bind Secret.type).any (· ≠ .oidc) then .error .isError
    else if ref.error.isSome && !oidc.pkceEnable then .error .isError
    else if oidc.pkceEnable then .error .isError
    else do
      let secret ← deref ref.secret
      .ok (secret.data[clientSecretKey]?.getD "")
  | none => if oidc.pkceEnable then .ok "" else .error .isError

def oidcTrustedCert (polNamespace : String) : Added String :=
  if oidc.sslVerify && oidc.trustedCertSecret ≠ "" then
    trustedCertPath opts (polNamespace ++ "/" ++ oidc.trustedCertSecret) opts.defaultCABundle
  else .ok opts.defaultCABundle

def oidcOf (polKey clientSecret caFile : String) : Version2.OIDC where
  spec := oidc
  clientSecret
  scope := generateString oidc.scope "openid"
  redirectURI := generateString oidc.redirectURI "/_codexch"
  postLogoutRedirectURI := generateString oidc.postLogoutRedirectURI "/_logout"
  zoneSyncLeeway := oidc.zoneSyncLeeway.getD 200
  authExtraArgs := String.intercalate "&" oidc.authExtraArgs
  verifyDepth := oidc.sslVerifyDepth.getD 1
  caFile
  policyName := polKey

/-- The first policy of a VirtualServer is built; the same policy is reused in later contexts and
any other is an error. -/
def addOIDCConfig (state : OidcState) (locations : OidcLocations)
    (cfg : PoliciesCfg) (oidc : OIDC) (polKey polNamespace : String) : Registered PoliciesCfg :=
  if cfg.oidc.isSome then (locations, .ok cfg)
  else if cfg.oidcProvider.isSome then (locations, .error .isError)
  else if state.policyName ≠ "" then
    (locations,
      if state.policyName ≠ polKey then .error .isError
      else .ok { cfg with oidc := state.config })
  else
    match oidcClientSecret opts oidc polNamespace with
    | .error failure => (locations, .error failure)
    | .ok clientSecret =>
      let redirectURI := generateString oidc.redirectURI "/_codexch"
      if njsConflict locations redirectURI then (locations, .error .isError)
      else (registerNjs locations redirectURI, do
        let caFile ← oidcTrustedCert opts oidc polNamespace
        .ok { cfg with oidc := some (oidcOf oidc polKey clientSecret caFile) })

def resolveOIDCNativeClientSecret (oidcNative : OIDCNative)
    (polNamespace : String) : Added String :=
  if oidcNative.clientSecret = "" then .ok ""
  else do
    let ref ← orError opts.secretRefs[polNamespace ++ "/" ++ oidcNative.clientSecret]?
    let ref ← checkSecret ref .oidc
    let secret ← orError ref.secret
    orError secret.data[clientSecretKey]?

/-- The certificate and the revocation list after it. -/
def resolveOIDCNativeTrustedCert (oidcNative : OIDCNative)
    (polNamespace : String) : Added (String × String) :=
  if oidcNative.trustedCertSecret = "" then .ok (opts.defaultCABundle, "")
  else do
    let ref ← orError opts.secretRefs[polNamespace ++ "/" ++ oidcNative.trustedCertSecret]?
    let ref ← checkSecret ref .ca
    .ok (firstField ref.path opts.defaultCABundle,
      String.ofList ((fields ref.path.toList)[1]?.getD []))

/-- The locations of a provider with their roles; a path may be empty. -/
def nativeLocations (redirectURI postLogoutURI proxyLocation : String) :
    List (String × String) :=
  [(redirectURI, "callback"), (postLogoutURI, "post-logout"), (proxyLocation, "proxy")].filter
    (·.1 ≠ "")

variable (locations : OidcLocations)

/-- What another owner of a location means for a provider. -/
def nativeConflict (provider : String) (location : String × String) :
    Option OidcNativeLocationOwner :=
  locations[location.1]?.filter (· ≠ ⟨provider, location.2⟩)

/-- Two providers may share a post-logout location, which only the first then generates. -/
def sharesPostLogout (existing : OidcNativeLocationOwner) (location : String × String) : Bool :=
  location.2 = "post-logout" && existing.role = "post-logout"

def oidcNativePostLogoutMessage : String := "You have been logged out.\n"

def validateAndRegisterOIDCNativeLocations
    (provider redirectURI postLogoutURI proxyLocation : String) :
    Registered (Option Version2.AuthOIDCReturnLocation) :=
  let claimed := nativeLocations redirectURI postLogoutURI proxyLocation
  let conflicts := claimed.filterMap fun location =>
    (nativeConflict locations provider location).map (·, location)
  if conflicts.any fun (existing, location) => !sharesPostLogout existing location then
    (locations, .error .isError)
  else
    let shared := conflicts.any fun (existing, location) => sharesPostLogout existing location
    let registered := claimed.filter fun location => !(location.2 = "post-logout" && shared)
    (registered.foldl (fun m location => m.insert location.1 ⟨provider, location.2⟩) locations,
      .ok (if postLogoutURI = "" || shared then none
        else some {
          path := postLogoutURI
          defaultType := "text/plain"
          ret := { code := 200, text := oidcNativePostLogoutMessage } }))

def oidcProviderName (owner : PolicyOwnerDetails) (polKey polNamespace : String) : String :=
  rfc1123ToSnake ("oidc_" ++ polNamespace ++ "_" ++
    (parseResourceReference polKey polNamespace).2 ++
    "_" ++ owner.parentNamespace ++ "_" ++ owner.parentName ++ "_" ++ owner.parentType)

def oidcProviderOf (oidcNative : OIDCNative) (provider polKey clientSecret
    trustedCert trustedCrl redirectURI proxyLocation : String)
    (postLogoutLocation : Option Version2.AuthOIDCReturnLocation) : Version2.OIDCProvider :=
  let sslVerify := oidcNative.sslVerify.getD true
  { name := provider
    policyKey := polKey
    spec := oidcNative
    clientSecret
    scope := replaceAll oidcNative.scope '+' ' '
    redirectURI
    cookieName := generateString oidcNative.cookieName ("NGX_OIDC_" ++ provider)
    sessionStore := "oidc_sessions_" ++ provider
    sync := opts.zoneSync
    sslTrustedCert := if sslVerify then trustedCert else ""
    sslCrl := trustedCrl
    sslVerify
    sslVerifyDepth := oidcNative.sslVerifyDepth.getD 1
    proxyLocation
    proxyBufferSize := generateString oidcNative.proxyBufferSize "32k"
    proxyTrustedCertPath := if sslVerify then trustedCert else ""
    postLogoutLocation }

def addOIDCNativeConfig (cfg : PoliciesCfg)
    (oidcNative : OIDCNative) (polKey polNamespace : String) (owner : PolicyOwnerDetails) :
    Registered PoliciesCfg :=
  if cfg.oidcProvider.isSome then (locations, .ok cfg)
  else if cfg.oidc.isSome then (locations, .error .isError)
  else
    match resolveOIDCNativeClientSecret opts oidcNative polNamespace,
        resolveOIDCNativeTrustedCert opts oidcNative polNamespace with
    | .error failure, _ => (locations, .error failure)
    | .ok _, .error failure => (locations, .error failure)
    | .ok clientSecret, .ok (trustedCert, trustedCrl) =>
      let provider := oidcProviderName owner polKey polNamespace
      let redirectURI := generateString oidcNative.redirectURI ("/oidc_callback_" ++ provider)
      let proxyLocation := "/_oidc_idp_" ++ provider
      let (locations, postLogoutLocation) := validateAndRegisterOIDCNativeLocations locations
        provider redirectURI oidcNative.postLogoutRedirectURI proxyLocation
      (locations, postLogoutLocation.map fun postLogoutLocation => { cfg with
        oidcProvider := some (oidcProviderOf opts oidcNative provider polKey clientSecret
          trustedCert trustedCrl redirectURI proxyLocation postLogoutLocation) })

end IngressController.Configs
