import IngressController.Generator.Policies

/-! # What a policy changes

One step for a policy changes the settings of its kind and no others. What holds of all steps
holds of all settings a context can have.
-/

namespace IngressController.Configs

open GoPanic

theorem map_eq_ok {α β : Type} {x : Added α} {f : α → β} {b : β} :
    x.map f = .ok b ↔ ∃ a, x = .ok a ∧ f a = b := by
  cases x <;> simp [Except.map]

theorem deref_eq_ok {α : Type} {x : Option α} {a : α} : deref x = .ok a ↔ x = some a := by
  cases x <;> simp [deref]

section Frames

variable {opts : PolicyOptions} {cfg cfg' : PoliciesCfg} {polKey polNamespace context : String}

theorem addJWTAuthConfig_frame {s : JWTAuth}
    (h : addJWTAuthConfig opts cfg s polKey polNamespace = .ok cfg') :
    cfg' = { cfg with jwtAuth := cfg'.jwtAuth } := by
  unfold addJWTAuthConfig at h
  split_ifs at h
  · cases h
    rfl
  · obtain ⟨ref, -, h⟩ := bind_eq_ok.mp h
    obtain ⟨ref', -, h⟩ := bind_eq_ok.mp h
    cases h
    rfl
  · obtain ⟨cert, -, h⟩ := bind_eq_ok.mp h
    obtain ⟨uri, -, h⟩ := bind_eq_ok.mp h
    cases h
    rfl
  · cases h
    rfl

theorem addBasicAuthConfig_frame {s : BasicAuth}
    (h : addBasicAuthConfig opts cfg s polNamespace = .ok cfg') :
    cfg' = { cfg with basicAuth := cfg'.basicAuth } := by
  unfold addBasicAuthConfig at h
  split_ifs at h
  · cases h
    rfl
  · obtain ⟨ref, -, h⟩ := bind_eq_ok.mp h
    obtain ⟨ref', -, h⟩ := bind_eq_ok.mp h
    cases h
    rfl

theorem addIngressMTLSConfig_frame {s : IngressMTLS}
    (h : addIngressMTLSConfig opts cfg s polNamespace context = .ok cfg') :
    cfg' = { cfg with ingressMTLS := cfg'.ingressMTLS } := by
  unfold addIngressMTLSConfig at h
  split_ifs at h
  · cases h
    rfl
  obtain ⟨ref, -, h⟩ := bind_eq_ok.mp h
  obtain ⟨ref', -, h⟩ := bind_eq_ok.mp h
  obtain ⟨secret, -, h⟩ := bind_eq_ok.mp h
  obtain ⟨cert, -, h⟩ := bind_eq_ok.mp h
  obtain ⟨crl, -, h⟩ := bind_eq_ok.mp h
  cases h
  rfl

theorem addEgressMTLSConfig_frame {s : EgressMTLS}
    (h : addEgressMTLSConfig opts cfg s polNamespace = .ok cfg') :
    cfg' = { cfg with egressMTLS := cfg'.egressMTLS } := by
  unfold addEgressMTLSConfig at h
  split_ifs at h
  · cases h
    rfl
  · obtain ⟨tls, -, h⟩ := bind_eq_ok.mp h
    obtain ⟨trusted, -, h⟩ := bind_eq_ok.mp h
    obtain ⟨cert, -, h⟩ := bind_eq_ok.mp h
    cases h
    rfl

theorem addOIDCConfig_frame {state : OidcState} {locations : OidcLocations} {s : OIDC}
    (h : (addOIDCConfig opts state locations cfg s polKey polNamespace).2 = .ok cfg') :
    cfg' = { cfg with oidc := cfg'.oidc } := by
  unfold addOIDCConfig at h
  split_ifs at h
  · cases h
    rfl
  · cases h
    rfl
  cases hsecret : oidcClientSecret opts s polNamespace with
  | error failure =>
    rw [hsecret] at h
    cases h
  | ok clientSecret =>
    simp only [hsecret] at h
    split_ifs at h
    obtain ⟨caFile, -, h⟩ := bind_eq_ok.mp h
    cases h
    rfl

theorem addOIDCNativeConfig_frame {locations : OidcLocations} {s : OIDCNative}
    {owner : PolicyOwnerDetails}
    (h : (addOIDCNativeConfig opts locations cfg s polKey polNamespace owner).2 = .ok cfg') :
    cfg' = { cfg with oidcProvider := cfg'.oidcProvider } := by
  unfold addOIDCNativeConfig at h
  split_ifs at h
  · cases h
    rfl
  · split at h
    · cases h
    · cases h
    · obtain ⟨location, -, rfl⟩ := map_eq_ok.mp h
      rfl

theorem addWAFConfig_frame {s : WAF}
    (h : addWAFConfig opts cfg s polKey polNamespace = .ok cfg') :
    cfg' = { cfg with waf := cfg'.waf } := by
  unfold addWAFConfig at h
  split at h
  · cases h
    rfl
  obtain ⟨apPolicy, -, h⟩ := bind_eq_ok.mp h
  obtain ⟨apBundle, -, h⟩ := bind_eq_ok.mp h
  obtain ⟨fetched, -, h⟩ := bind_eq_ok.mp h
  obtain ⟨logs, -, h⟩ := bind_eq_ok.mp h
  cases h
  rfl

theorem addHSTSConfig_frame {s : HSTS} (h : addHSTSConfig opts cfg s context = .ok cfg') :
    cfg' = { cfg with hsts := cfg'.hsts } := by
  unfold addHSTSConfig at h
  split_ifs at h
  · cases h
    rfl
  · obtain ⟨maxAge, -, h⟩ := bind_eq_ok.mp h
    cases h
    rfl

theorem addCacheConfig_frame (cfg : PoliciesCfg) (s : Cache) (owner : PolicyOwnerDetails) :
    addCacheConfig cfg s owner = { cfg with cache := (addCacheConfig cfg s owner).cache } := by
  unfold addCacheConfig
  split <;> rfl

end Frames

section Named

variable {opts : PolicyOptions} {cfg cfg' : PoliciesCfg}
  {polKey polNamespace polName context path : String} {owner : PolicyOwnerDetails}

/-- Only the first authentication counts. -/
theorem addExternalAuthConfig_spec {s : ExternalAuth}
    (h : addExternalAuthConfig opts cfg s polNamespace polName owner = .ok cfg') :
    (cfg.externalAuth.isSome = true ∧ cfg' = cfg) ∨
      (cfg.externalAuth = none ∧ ∃ auth,
        externalAuthSettings opts s polNamespace polName owner = .ok auth ∧
          cfg' = { cfg with externalAuth := some auth }) := by
  unfold addExternalAuthConfig at h
  split at h
  · rename_i hsome
    cases h
    exact .inl ⟨hsome, rfl⟩
  · rename_i hnone
    obtain ⟨auth, hauth, h⟩ := bind_eq_ok.mp h
    cases h
    exact .inr ⟨by simpa using hnone, auth, hauth, rfl⟩

/-- A context has one API key policy, whose secret holds its clients. -/
theorem addAPIKeyConfig_spec {s : APIKey}
    (h : addAPIKeyConfig opts cfg s polKey polNamespace owner context path = .ok cfg') :
    cfg.apiKey.key = none ∧ ∃ ref secret snakeName suppliedIn,
      opts.secretRefs[polNamespace ++ "/" ++ s.clientSecret]? = some ref ∧
      ref.secret = some secret ∧ policyNameOfKey polKey = .ok snakeName ∧
      s.suppliedIn = some suppliedIn ∧
      cfg' = { cfg with apiKey := { cfg.apiKey with
        clients := generateAPIKeyClients opts (.clients owner context path polKey) secret.data
        key := some {
          header := suppliedIn.header
          query := suppliedIn.query
          mapName := apiKeyMapName owner snakeName }
        enabled := true } } := by
  unfold addAPIKeyConfig at h
  split at h
  · cases h
  rename_i hnone
  obtain ⟨ref, href, h⟩ := bind_eq_ok.mp h
  obtain ⟨ref', href', h⟩ := bind_eq_ok.mp h
  obtain ⟨secret, hsecret, h⟩ := bind_eq_ok.mp h
  obtain ⟨snakeName, hname, h⟩ := bind_eq_ok.mp h
  obtain ⟨suppliedIn, hsupplied, h⟩ := bind_eq_ok.mp h
  cases h
  have hchecked : ref' = ref := by
    unfold checkSecret at href'
    split at href'
    · cases href'
    · cases href'
      rfl
  subst hchecked
  exact ⟨by simpa using hnone, ref', secret, snakeName, suppliedIn, deref_eq_ok.mp href,
    deref_eq_ok.mp hsecret, hname, deref_eq_ok.mp hsupplied, rfl⟩

/-- Only the first Wallarm policy counts. -/
theorem addWallarmConfig_eq (cfg : PoliciesCfg) (s : Wallarm) :
    addWallarmConfig cfg s = { cfg with wallarm := cfg.wallarm.or (some (wallarmOf s)) } := by
  unfold addWallarmConfig
  cases hwallarm : cfg.wallarm with
  | none => rfl
  | some wallarm =>
    rw [Option.isSome_some, if_pos rfl, Option.some_or, ← hwallarm]

end Named

/-- What adding a policy does to the settings of a context. The last case covers all kinds of
policies that need no maps or locations of their own. -/
inductive PolicyStep (opts : PolicyOptions) (ctx : PolicyContext) (ref : PolicyReference)
    (pol : Policy) (cfg cfg' : PoliciesCfg) : Prop where
  | rateLimit (s : RateLimit) (hkind : pol.spec.rateLimit = some s)
      (hstep : cfg' =
        addRateLimitConfig opts cfg pol.objectMeta s ctx.owner ctx.context ctx.path)
  | externalAuth (s : ExternalAuth) (hkind : pol.spec.externalAuth = some s)
      (hstep : addExternalAuthConfig opts cfg s (referencedNamespace ctx ref) ref.name ctx.owner =
        .ok cfg')
  | apiKey (s : APIKey) (hkind : pol.spec.apiKey = some s)
      (hstep : addAPIKeyConfig opts cfg s (referencedKey ctx ref) (referencedNamespace ctx ref)
        ctx.owner ctx.context ctx.path = .ok cfg')
  | wallarm (s : Wallarm) (hkind : pol.spec.wallarm = some s)
      (hstep : cfg' = addWallarmConfig cfg s)
  | cors (s : CORS) (hkind : pol.spec.cors = some s)
      (hstep : cfg' = addCORSConfig opts cfg s (referencedKey ctx ref) ctx.owner)
  | other (hstep : cfg' = { cfg with
      allow := cfg'.allow
      deny := cfg'.deny
      jwtAuth := cfg'.jwtAuth
      basicAuth := cfg'.basicAuth
      ingressMTLS := cfg'.ingressMTLS
      egressMTLS := cfg'.egressMTLS
      oidc := cfg'.oidc
      oidcProvider := cfg'.oidcProvider
      waf := cfg'.waf
      cache := cfg'.cache
      hsts := cfg'.hsts })

variable {opts : PolicyOptions} {policies : GoMap Policy} {state : OidcState}
  {ctx : PolicyContext} {ref : PolicyReference} {pol : Policy} {locations : OidcLocations}
  {cfg cfg' : PoliciesCfg}

theorem policyStep_of_addPolicyConfig
    (h : (addPolicyConfig opts state ctx ref pol locations cfg).2 = .ok cfg') :
    PolicyStep opts ctx ref pol cfg cfg' := by
  unfold addPolicyConfig at h
  dsimp only at h
  split at h
  · cases h
    exact .other rfl
  split at h
  · rename_i hkind
    cases h
    exact .rateLimit _ hkind rfl
  split at h
  · refine .other ?_
    rw [addJWTAuthConfig_frame h]
  split at h
  · rename_i hkind
    exact .externalAuth _ hkind h
  split at h
  · refine .other ?_
    rw [addBasicAuthConfig_frame h]
  split at h
  · refine .other ?_
    rw [addIngressMTLSConfig_frame h]
  split at h
  · refine .other ?_
    rw [addEgressMTLSConfig_frame h]
  split at h
  · refine .other ?_
    rw [addOIDCConfig_frame h]
  split at h
  · refine .other ?_
    rw [addOIDCNativeConfig_frame h]
  split at h
  · rename_i hkind
    exact .apiKey _ hkind h
  split at h
  · refine .other ?_
    rw [addWAFConfig_frame h]
  split at h
  · rename_i hkind
    cases h
    exact .wallarm _ hkind rfl
  split at h
  · cases h
    refine .other ?_
    rw [addCacheConfig_frame]
  split at h
  · rename_i hkind
    cases h
    exact .cors _ hkind rfl
  · split at h
    · refine .other ?_
      rw [addHSTSConfig_frame h]
    · cases h
      exact .other rfl

theorem policyStep_of_addPolicy
    (h : (addPolicy opts policies state ctx ref locations cfg).2 = .ok cfg') :
    ∃ pol, policies[referencedKey ctx ref]? = some pol ∧ PolicyStep opts ctx ref pol cfg cfg' := by
  unfold addPolicy at h
  split at h
  · cases h
  · rename_i pol hpol
    split at h
    · cases h
    · exact ⟨pol, hpol, policyStep_of_addPolicyConfig h⟩

variable {refs : List PolicyReference}

theorem addPolicies_invariant {P : PoliciesCfg → Prop}
    (hstep : ∀ ref ∈ refs, ∀ pol cfg cfg', policies[referencedKey ctx ref]? = some pol →
      PolicyStep opts ctx ref pol cfg cfg' → P cfg → P cfg')
    (hcfg : P cfg) (h : (addPolicies opts policies state ctx refs locations cfg).2 = .ok cfg') :
    P cfg' := by
  induction refs generalizing locations cfg with
  | nil =>
    cases h
    exact hcfg
  | cons ref refs ih =>
    rw [addPolicies] at h
    split at h
    · rename_i locations' cfg'' heq
      obtain ⟨pol, hpol, hpolStep⟩ := policyStep_of_addPolicy (congrArg Prod.snd heq)
      refine ih (fun ref' hmem => hstep ref' (List.mem_cons_of_mem _ hmem)) ?_ h
      exact hstep ref List.mem_cons_self pol cfg cfg'' hpol hpolStep hcfg
    · cases h

/-- The settings of a context are those of an error, or all its policies were added. -/
theorem generatePolicies_spec
    (h : generatePolicies opts policies state ctx refs = some (cfg, locations)) :
    ((addPolicies opts policies state ctx refs state.locations {}).2 = .error .isError ∧
        cfg = errorPoliciesCfg) ∨
      ∃ added, (addPolicies opts policies state ctx refs state.locations {}).2 = .ok added ∧
        cfg = finishPolicies opts ctx added := by
  unfold generatePolicies at h
  split at h
  · cases h
  · rename_i heq
    cases h
    exact .inl ⟨congrArg Prod.snd heq, rfl⟩
  · rename_i added heq
    cases h
    exact .inr ⟨added, congrArg Prod.snd heq, rfl⟩

/-- What holds of no settings and of those of an error, and what all steps and the maps of groups
preserve, holds of the settings of a context. -/
theorem generatePolicies_invariant {P : PoliciesCfg → Prop}
    (hempty : P {}) (herror : P errorPoliciesCfg)
    (hstep : ∀ ref ∈ refs, ∀ pol cfg cfg', policies[referencedKey ctx ref]? = some pol →
      PolicyStep opts ctx ref pol cfg cfg' → P cfg → P cfg')
    (hfinish : ∀ cfg, P cfg → P (finishPolicies opts ctx cfg))
    (h : generatePolicies opts policies state ctx refs = some (cfg, locations)) : P cfg := by
  rcases generatePolicies_spec h with ⟨-, rfl⟩ | ⟨added, hadded, rfl⟩
  · exact herror
  · exact hfinish added (addPolicies_invariant hstep hempty hadded)

end IngressController.Configs
