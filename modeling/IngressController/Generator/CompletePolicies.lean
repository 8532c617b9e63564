import IngressController.Generator.Policies

/-! # Complete secrets and policies

The controller hands the generator every secret its policies name. With such references no policy
dereferences a nil pointer, whatever the context.
-/

namespace IngressController.Configs

open GoString

def NoPanic {α : Type} (x : Added α) : Prop := x ≠ .error .panic

section NoPanic

variable {α β : Type}

@[simp] theorem noPanic_ok (a : α) : NoPanic (.ok a : Added α) := by
  simp [NoPanic]

@[simp] theorem noPanic_isError : NoPanic (.error .isError : Added α) := by
  simp [NoPanic]

/-- A failure is a panic or not whatever it is a failure of. -/
theorem noPanic_error {failure : Failure} (h : NoPanic (.error failure : Added α)) :
    NoPanic (.error failure : Added β) := by
  simpa [NoPanic] using h

theorem noPanic_bind {x : Added α} {f : α → Added β} (hx : NoPanic x)
    (hf : ∀ a, x = .ok a → NoPanic (f a)) : NoPanic (x >>= f) := by
  cases x with
  | ok a => exact hf a rfl
  | error failure => exact noPanic_error hx

theorem noPanic_map {x : Added α} {f : α → β} (hx : NoPanic x) : NoPanic (x.map f) := by
  cases x with
  | ok a => exact noPanic_ok _
  | error failure => exact noPanic_error hx

theorem noPanic_deref {o : Option α} (h : o.isSome) : NoPanic (deref o) := by
  obtain ⟨a, rfl⟩ := Option.isSome_iff_exists.mp h
  exact noPanic_ok a

theorem noPanic_orError (o : Option α) : NoPanic (orError o) := by
  cases o <;> simp [orError]

theorem noPanic_checkSecret (ref : SecretReference) (type : SecretType) :
    NoPanic (checkSecret ref type) := by
  unfold checkSecret
  split <;> simp

/-- Most policies check a secret before they use it. -/
theorem noPanic_secret {x : Added SecretReference} {type : SecretType}
    {f : SecretReference → SecretReference → Added β} (hx : NoPanic x)
    (hf : ∀ ref ref', NoPanic (f ref ref')) :
    NoPanic (x >>= fun ref => checkSecret ref type >>= f ref) :=
  noPanic_bind hx fun ref _ => noPanic_bind (noPanic_checkSecret ref _) fun ref' _ => hf ref ref'

theorem noPanic_addedIf (cond : Bool) {x : Added α} (hx : NoPanic x) :
    NoPanic (addedIf cond x) := by
  unfold addedIf
  split
  · exact noPanic_map hx
  · exact noPanic_ok none

theorem noPanic_mapM {f : α → Added β} (hf : ∀ a, NoPanic (f a)) (l : List α) :
    NoPanic (l.mapM f) := by
  induction l with
  | nil => exact noPanic_ok []
  | cons a l ih =>
    rw [List.mapM_cons]
    exact noPanic_bind (hf a) fun b _ => noPanic_bind ih fun bs _ => noPanic_ok _

end NoPanic

theorem checkSecret_ok {ref ref' : SecretReference} {type : SecretType}
    (h : checkSecret ref type = .ok ref') : ref' = ref ∧ isInvalidSecret ref type = false := by
  unfold checkSecret at h
  split at h
  · cases h
  · rename_i hvalid
    exact ⟨(Except.ok.inj h).symm, by simpa using hvalid⟩

theorem orError_ok {α : Type} {o : Option α} {a : α} (h : orError o = .ok a) : o = some a := by
  cases o with
  | none => cases h
  | some b => exact congrArg some (Except.ok.inj h)

/-- References as the secret store gives them: without an error there is a secret, and the path of
a CA secret names its certificate and, if it has one, its revocation list. -/
structure CompleteSecretRefs (secretRefs : GoMap SecretReference) : Prop where
  secret : ∀ (key : String) ref, secretRefs[key]? = some ref → ref.error = none →
    ref.secret.isSome
  caFiles : ∀ (key : String) ref secret, secretRefs[key]? = some ref →
    isInvalidSecret ref .ca = false → ref.secret = some secret →
      fields ref.path.toList ≠ [] ∧
        (secret.data.contains caCrlKey = true → 2 ≤ (fields ref.path.toList).length)

/-- The secrets a policy needs are there, and its fields are those of a validated policy. -/
structure CompletePolicy (secretRefs : GoMap SecretReference) (parseURL : String → Option URL)
    (nspace : String) (spec : PolicySpec) : Prop where
  jwtSecret : ∀ s, spec.jwtAuth = some s → s.secret ≠ "" →
    (secretRefs[nspace ++ "/" ++ s.secret]?).isSome
  jwksURI : ∀ s, spec.jwtAuth = some s → s.jwksURI ≠ "" → (parseURL s.jwksURI).isSome
  basicSecret : ∀ s, spec.basicAuth = some s →
    (secretRefs[nspace ++ "/" ++ s.secret]?).isSome
  apiKeySecret : ∀ s, spec.apiKey = some s →
    (secretRefs[nspace ++ "/" ++ s.clientSecret]?).isSome
  suppliedIn : ∀ s, spec.apiKey = some s → s.suppliedIn.isSome

structure CompletePolicies (secretRefs : GoMap SecretReference)
    (parseURL : String → Option URL) (policies : GoMap Policy) : Prop where
  refs : CompleteSecretRefs secretRefs
  policy : ∀ (nspace name : String) pol, policies[nspace ++ "/" ++ name]? = some pol →
    CompletePolicy secretRefs parseURL nspace pol.spec

variable {opts : PolicyOptions} {nspace : String}

theorem isSome_secret_of_valid (hrefs : CompleteSecretRefs opts.secretRefs) {key : String}
    {ref : SecretReference} {type : SecretType} (hget : opts.secretRefs[key]? = some ref)
    (hvalid : isInvalidSecret ref type = false) : ref.secret.isSome := by
  refine hrefs.secret key ref hget ?_
  simpa [isInvalidSecret] using (Bool.or_eq_false_iff.mp hvalid).2

theorem noPanic_trustedCertPath (key default : String) :
    NoPanic (trustedCertPath opts key default) :=
  noPanic_secret (noPanic_orError _) fun _ _ => noPanic_ok _

variable {spec : PolicySpec}

theorem noPanic_addJWTAuthConfig (hpol : CompletePolicy opts.secretRefs opts.parseURL nspace spec)
    (cfg : PoliciesCfg) {s : JWTAuth} (hs : spec.jwtAuth = some s) (polKey : String) :
    NoPanic (addJWTAuthConfig opts cfg s polKey nspace) := by
  unfold addJWTAuthConfig
  split
  · exact noPanic_ok cfg
  split
  · rename_i hsecret
    exact noPanic_secret (noPanic_deref (hpol.jwtSecret s hs hsecret)) fun _ _ => noPanic_ok _
  split
  · rename_i huri
    refine noPanic_bind ?_ fun cert _ => ?_
    · unfold jwksTrustedCert
      split
      · exact noPanic_trustedCertPath _ _
      · exact noPanic_ok ""
    · exact noPanic_bind (noPanic_deref (hpol.jwksURI s hs huri)) fun uri _ => noPanic_ok _
  · exact noPanic_ok cfg

theorem noPanic_addBasicAuthConfig (hpol : CompletePolicy opts.secretRefs opts.parseURL nspace spec)
    (cfg : PoliciesCfg) {s : BasicAuth} (hs : spec.basicAuth = some s) :
    NoPanic (addBasicAuthConfig opts cfg s nspace) := by
  unfold addBasicAuthConfig
  split
  · exact noPanic_ok cfg
  · exact noPanic_secret (noPanic_deref (hpol.basicSecret s hs)) fun _ _ => noPanic_ok _

variable (cfg : PoliciesCfg)

theorem noPanic_addExternalAuthConfig (s : ExternalAuth) (polName : String)
    (owner : PolicyOwnerDetails) :
    NoPanic (addExternalAuthConfig opts cfg s nspace polName owner) := by
  unfold addExternalAuthConfig
  split
  · exact noPanic_ok cfg
  refine noPanic_bind ?_ fun auth _ => noPanic_ok _
  unfold externalAuthSettings
  dsimp only
  split
  · refine noPanic_bind ?_ fun cert _ => noPanic_ok _
    unfold externalAuthTrustedCert
    split
    · exact noPanic_trustedCertPath _ _
    · exact noPanic_ok _
  · exact noPanic_ok _

/-- The key of a policy has a slash, so there is a second piece. -/
theorem noPanic_policyNameOfKey (name : String) :
    NoPanic (policyNameOfKey (nspace ++ "/" ++ name)) := by
  refine noPanic_deref ?_
  have hmem : '/' ∈ (rfc1123ToSnake (nspace ++ "/" ++ name)).toList := by
    simp [rfc1123ToSnake, replaceAll]
  have hlength := two_le_length_splitOn hmem
  rw [split, List.getElem?_map, Option.isSome_map]
  simp only [isSome_getElem?]
  omega

variable (hrefs : CompleteSecretRefs opts.secretRefs)
include hrefs

theorem noPanic_addAPIKeyConfig (hpol : CompletePolicy opts.secretRefs opts.parseURL nspace spec)
    (cfg : PoliciesCfg) {s : APIKey} (hs : spec.apiKey = some s) (name : String)
    (owner : PolicyOwnerDetails) (context path : String) :
    NoPanic (addAPIKeyConfig opts cfg s (nspace ++ "/" ++ name) nspace owner context path) := by
  unfold addAPIKeyConfig
  split
  · exact noPanic_isError
  have hsome := hpol.apiKeySecret s hs
  obtain ⟨ref, href⟩ := Option.isSome_iff_exists.mp hsome
  refine noPanic_bind (noPanic_deref hsome) fun ref' href' => ?_
  refine noPanic_bind (noPanic_checkSecret ref' _) fun ref'' hcheck => ?_
  obtain ⟨rfl, hvalid⟩ := checkSecret_ok hcheck
  rw [href] at href'
  obtain rfl := Except.ok.inj href'
  have hsecret := isSome_secret_of_valid hrefs href hvalid
  refine noPanic_bind (noPanic_deref hsecret) fun secret _ => ?_
  refine noPanic_bind (noPanic_policyNameOfKey name) fun snakeName _ => ?_
  exact noPanic_bind (noPanic_deref (hpol.suppliedIn s hs)) fun suppliedIn _ => noPanic_ok _

theorem noPanic_addIngressMTLSConfig (cfg : PoliciesCfg) (s : IngressMTLS) (context : String) :
    NoPanic (addIngressMTLSConfig opts cfg s nspace context) := by
  unfold addIngressMTLSConfig
  split_ifs
  · exact noPanic_isError
  · exact noPanic_isError
  · exact noPanic_ok cfg
  refine noPanic_bind (noPanic_orError _) fun ref href => ?_
  refine noPanic_bind (noPanic_checkSecret ref _) fun ref' hcheck => ?_
  obtain ⟨rfl, hvalid⟩ := checkSecret_ok hcheck
  have hget := orError_ok href
  have hsecret := isSome_secret_of_valid hrefs hget hvalid
  refine noPanic_bind (noPanic_deref hsecret) fun secret hs' => ?_
  obtain ⟨secret', hsecret'⟩ := Option.isSome_iff_exists.mp hsecret
  rw [hsecret'] at hs'
  obtain rfl := Except.ok.inj hs'
  obtain ⟨hfields, hcrl⟩ := hrefs.caFiles _ ref' secret' hget hvalid hsecret'
  refine noPanic_bind (noPanic_deref ?_) fun cert _ => ?_
  · simpa [List.length_pos_iff] using hfields
  refine noPanic_bind ?_ fun crl _ => noPanic_ok _
  unfold ingressMTLSCrl
  split_ifs with h1 h2
  · exact noPanic_ok _
  · refine noPanic_map (noPanic_deref ?_)
    have hlength := hcrl h2
    simp only [isSome_getElem?]
    omega
  · exact noPanic_ok _

omit hrefs in
theorem noPanic_egressSecretPath (name : String) (type : SecretType) :
    NoPanic (egressSecretPath opts nspace name type) := by
  unfold egressSecretPath
  split
  · exact noPanic_ok ""
  · exact noPanic_secret (noPanic_orError _) fun _ _ => noPanic_ok _

/-- A path that is read from a valid CA secret names a file. -/
theorem fields_of_egressSecretPath {name path : String}
    (h : egressSecretPath opts nspace name .ca = .ok path) (hne : path ≠ "") :
    fields path.toList ≠ [] := by
  unfold egressSecretPath at h
  split at h
  · exact absurd (Except.ok.inj h).symm hne
  cases hget : opts.secretRefs[nspace ++ "/" ++ name]? with
  | none => simp [hget, orError, bind, Except.bind] at h
  | some ref =>
    cases hcheck : checkSecret ref .ca with
    | error failure => simp [hget, orError, bind, Except.bind, hcheck] at h
    | ok ref' =>
      obtain ⟨rfl, hvalid⟩ := checkSecret_ok hcheck
      obtain rfl : ref'.path = path := by
        simpa [hget, orError, bind, Except.bind, hcheck] using h
      obtain ⟨secret, hsecret⟩ := Option.isSome_iff_exists.mp
        (isSome_secret_of_valid hrefs hget hvalid)
      exact (hrefs.caFiles _ ref' secret hget hvalid hsecret).1

theorem noPanic_addEgressMTLSConfig (cfg : PoliciesCfg) (s : EgressMTLS) :
    NoPanic (addEgressMTLSConfig opts cfg s nspace) := by
  unfold addEgressMTLSConfig
  split
  · exact noPanic_ok cfg
  refine noPanic_bind (noPanic_egressSecretPath _ _) fun tls _ => ?_
  refine noPanic_bind (noPanic_egressSecretPath _ _) fun trusted htrusted => ?_
  refine noPanic_bind ?_ fun cert _ => noPanic_ok _
  unfold egressTrustedCert
  split
  · exact noPanic_ok ""
  · rename_i hne
    refine noPanic_map (noPanic_deref ?_)
    simpa [List.length_pos_iff] using fields_of_egressSecretPath hrefs htrusted hne

theorem noPanic_oidcClientSecret (s : OIDC) : NoPanic (oidcClientSecret opts s nspace) := by
  unfold oidcClientSecret
  cases hget : opts.secretRefs[nspace ++ "/" ++ s.clientSecret]? with
  | none =>
    dsimp only
    split <;> simp
  | some ref =>
    dsimp only
    split_ifs with htype herror hpkce
    · exact noPanic_isError
    · exact noPanic_isError
    · exact noPanic_isError
    · have hnone : ref.error = none := by
        simpa [hpkce] using herror
      refine noPanic_bind (noPanic_deref (hrefs.secret _ ref hget hnone)) fun secret _ => ?_
      exact noPanic_ok _

theorem noPanic_addOIDCConfig (state : OidcState) (locations : OidcLocations) (cfg : PoliciesCfg)
    (s : OIDC) (polKey : String) :
    NoPanic (addOIDCConfig opts state locations cfg s polKey nspace).2 := by
  unfold addOIDCConfig
  split_ifs
  · exact noPanic_ok cfg
  · exact noPanic_isError
  · exact noPanic_isError
  · exact noPanic_ok _
  have hsecret : NoPanic (oidcClientSecret opts s nspace) := noPanic_oidcClientSecret hrefs s
  cases hclient : oidcClientSecret opts s nspace with
  | error failure =>
    rw [hclient] at hsecret
    exact noPanic_error hsecret
  | ok clientSecret =>
    dsimp only
    split_ifs
    · exact noPanic_isError
    · refine noPanic_bind ?_ fun cert _ => noPanic_ok _
      unfold oidcTrustedCert
      split
      · exact noPanic_trustedCertPath _ _
      · exact noPanic_ok _

omit hrefs

theorem noPanic_resolveClientSecret (s : OIDCNative) :
    NoPanic (resolveOIDCNativeClientSecret opts s nspace) := by
  unfold resolveOIDCNativeClientSecret
  split
  · exact noPanic_ok ""
  · refine noPanic_secret (noPanic_orError _) fun _ _ => ?_
    exact noPanic_bind (noPanic_orError _) fun secret _ => noPanic_orError _

theorem noPanic_resolveTrustedCert (s : OIDCNative) :
    NoPanic (resolveOIDCNativeTrustedCert opts s nspace) := by
  unfold resolveOIDCNativeTrustedCert
  split
  · exact noPanic_ok _
  · exact noPanic_secret (noPanic_orError _) fun _ _ => noPanic_ok _

theorem noPanic_registerNative (locations : OidcLocations)
    (provider redirectURI postLogoutURI proxyLocation : String) :
    NoPanic (validateAndRegisterOIDCNativeLocations locations provider redirectURI postLogoutURI
      proxyLocation).2 := by
  unfold validateAndRegisterOIDCNativeLocations
  dsimp only
  split <;> simp

theorem noPanic_addOIDCNativeConfig (locations : OidcLocations) (cfg : PoliciesCfg)
    (s : OIDCNative) (polKey : String) (owner : PolicyOwnerDetails) :
    NoPanic (addOIDCNativeConfig opts locations cfg s polKey nspace owner).2 := by
  unfold addOIDCNativeConfig
  split_ifs
  · exact noPanic_ok cfg
  · exact noPanic_isError
  have hsecret : NoPanic (resolveOIDCNativeClientSecret opts s nspace) :=
    noPanic_resolveClientSecret s
  have hcert : NoPanic (resolveOIDCNativeTrustedCert opts s nspace) :=
    noPanic_resolveTrustedCert s
  split
  · rename_i failure heq
    rw [heq] at hsecret
    exact noPanic_error hsecret
  · rename_i failure _ heq
    rw [heq] at hcert
    exact noPanic_error hcert
  · exact noPanic_map (noPanic_registerNative _ _ _ _ _)

theorem noPanic_addWAFConfig (s : WAF) (polKey : String) :
    NoPanic (addWAFConfig opts cfg s polKey nspace) := by
  unfold addWAFConfig
  split
  · exact noPanic_ok cfg
  refine noPanic_bind (noPanic_addedIf _ (noPanic_orError _)) fun apPolicy _ => ?_
  refine noPanic_bind (noPanic_addedIf _ (noPanic_orError _)) fun apBundle _ => ?_
  refine noPanic_bind (noPanic_addedIf _ (noPanic_orError _)) fun fetched _ => ?_
  refine noPanic_bind (noPanic_mapM (fun e => ?_) _) fun logs _ => noPanic_ok _
  refine noPanic_bind (noPanic_addedIf _ (noPanic_orError _)) fun logConf _ => ?_
  refine noPanic_bind (noPanic_addedIf _ (noPanic_orError _)) fun logBundle _ => ?_
  exact noPanic_bind (noPanic_addedIf _ (noPanic_orError _)) fun logFetched _ => noPanic_ok _

theorem noPanic_addHSTSConfig (s : HSTS) (context : String) :
    NoPanic (addHSTSConfig opts cfg s context) := by
  unfold addHSTSConfig
  split_ifs
  · exact noPanic_isError
  · exact noPanic_isError
  · exact noPanic_ok cfg
  · exact noPanic_bind (noPanic_orError _) fun maxAge _ => noPanic_ok _

variable {policies : GoMap Policy}
  (hcomplete : CompletePolicies opts.secretRefs opts.parseURL policies)
include hcomplete

variable (state : OidcState) (ctx : PolicyContext)

theorem noPanic_addPolicyConfig (ref : PolicyReference)
    {pol : Policy} (hpol : policies[referencedKey ctx ref]? = some pol) (locations : OidcLocations)
    (cfg : PoliciesCfg) : NoPanic (addPolicyConfig opts state ctx ref pol locations cfg).2 := by
  have hrefs := hcomplete.refs
  have hspec := hcomplete.policy _ _ pol hpol
  unfold addPolicyConfig
  dsimp only
  split
  · exact noPanic_ok _
  split
  · exact noPanic_ok _
  split
  · exact noPanic_addJWTAuthConfig hspec cfg ‹_› _
  split
  · exact noPanic_addExternalAuthConfig cfg _ _ _
  split
  · exact noPanic_addBasicAuthConfig hspec cfg ‹_›
  split
  · exact noPanic_addIngressMTLSConfig hrefs cfg _ _
  split
  · exact noPanic_addEgressMTLSConfig hrefs cfg _
  split
  · exact noPanic_addOIDCConfig hrefs state locations cfg _ _
  split
  · exact noPanic_addOIDCNativeConfig locations cfg _ _ _
  split
  · exact noPanic_addAPIKeyConfig hrefs hspec cfg ‹_› _ _ _ _
  split
  · exact noPanic_addWAFConfig cfg _ _
  split
  · exact noPanic_ok _
  split
  · exact noPanic_ok _
  split
  · exact noPanic_ok _
  split
  · exact noPanic_addHSTSConfig cfg _ _
  exact noPanic_ok _

theorem noPanic_addPolicy (ref : PolicyReference) (locations : OidcLocations) (cfg : PoliciesCfg) :
    NoPanic (addPolicy opts policies state ctx ref locations cfg).2 := by
  unfold addPolicy
  split
  · exact noPanic_isError
  · rename_i pol hpol
    split
    · exact noPanic_isError
    · exact noPanic_addPolicyConfig hcomplete state ctx ref hpol locations cfg

theorem noPanic_addPolicies (refs : List PolicyReference)
    (locations : OidcLocations) (cfg : PoliciesCfg) :
    NoPanic (addPolicies opts policies state ctx refs locations cfg).2 := by
  induction refs generalizing locations cfg with
  | nil => exact noPanic_ok cfg
  | cons ref refs ih =>
    have hstep := noPanic_addPolicy hcomplete state ctx ref locations cfg
    rw [addPolicies]
    split
    · exact ih _ _
    · rename_i failure heq
      rw [heq] at hstep
      exact hstep

/-- With complete secrets and policies every context has settings. -/
theorem isSome_generatePolicies
    (refs : List PolicyReference) : (generatePolicies opts policies state ctx refs).isSome := by
  have hadd := noPanic_addPolicies hcomplete state ctx refs state.locations {}
  unfold generatePolicies
  split
  · rename_i heq
    rw [heq] at hadd
    exact absurd rfl hadd
  · rfl
  · rfl

omit hcomplete

end IngressController.Configs
