import IngressController.Generator.PolicyNames

/-! # Locations of external authentication

An authentication whose internal path is new adds a location for it, and the first one with a
sign-in URL adds a location for signing in. What a run adds depends only on the settings of its
contexts.
-/

namespace IngressController.Configs

open GoString Version2 List Prod

namespace Generator

/-- What is registered of the authentications so far, with the paths of their locations. -/
structure AuthState where
  urls : List String := []
  oauth2 : Bool := false
  paths : List String := []

variable (namer : UpstreamNamer)

section

variable (g : Generator)

def authStep (s : AuthState) (auth : Version2.ExternalAuth) : AuthState :=
  if auth.uri.internalPath ∈ s.urls then s
  else {
    urls := auth.uri.internalPath ::
      (if auth.signinURL ≠ "" then [auth.signinURL] else []) ++ s.urls
    oauth2 := s.oauth2 || auth.signinURL ≠ ""
    paths := s.paths ++ quote g.vsc.isPrint auth.uri.internalPath ::
      if auth.signinURL ≠ "" && !s.oauth2 then
        [quote g.vsc.isPrint auth.signinRedirectBasePath]
      else [] }

def authStateOf (cfgs : List PoliciesCfg) : AuthState :=
  (cfgs.filterMap PoliciesCfg.externalAuth).foldl g.authStep {}

theorem authStateOf_concat (cfgs : List PoliciesCfg) (cfg : PoliciesCfg) :
    g.authStateOf (cfgs ++ [cfg]) =
      match cfg.externalAuth with
      | some auth => g.authStep (g.authStateOf cfgs) auth
      | none => g.authStateOf cfgs := by
  unfold authStateOf
  cases hauth : cfg.externalAuth with
  | none => simp [hauth]
  | some auth => simp [hauth, foldl_append]

variable (auth : Version2.ExternalAuth)

theorem path_verifyUpstream (loc : Location) : (verifyUpstream auth loc).path = loc.path := by
  unfold verifyUpstream
  split <;> rfl

theorem errorPages_externalAuthLocations (st : GeneratorState) :
    ∀ loc ∈ g.externalAuthLocations namer auth st, loc.errorPages = [] := by
  have hverify : ∀ loc : Location, loc.errorPages = [] →
      (verifyUpstream auth loc).errorPages = [] := by
    intro loc hloc
    unfold verifyUpstream
    split <;> exact hloc
  intro loc hloc
  unfold externalAuthLocations at hloc
  dsimp only at hloc
  split at hloc
  · cases hloc
  rcases mem_cons.mp hloc with rfl | hloc
  · exact hverify _ rfl
  · split at hloc
    · obtain rfl := mem_singleton.mp hloc
      exact hverify _ rfl
    · cases hloc

theorem addExternalAuth_spec {st : GeneratorState} {s : AuthState}
    (hurls : st.generatedExternalAuthURLs = s.urls)
    (hoauth2 : st.generatedOAuth2Location = s.oauth2) :
    (g.addExternalAuth namer auth st).generatedExternalAuthURLs = (g.authStep s auth).urls ∧
      (g.addExternalAuth namer auth st).generatedOAuth2Location = (g.authStep s auth).oauth2 ∧
      s.paths ++ (g.externalAuthLocations namer auth st).map Location.path =
        (g.authStep s auth).paths := by
  unfold addExternalAuth externalAuthLocations authStep
  dsimp only
  rw [hurls, hoauth2]
  by_cases hseen : auth.uri.internalPath ∈ s.urls
  · simp [hseen, hurls, hoauth2]
  rw [if_neg hseen, if_neg hseen, if_neg hseen]
  refine ⟨?_, ?_, ?_⟩
  · simp [addUpstream, hurls]
  · simp [addUpstream, hoauth2]
  · split
    · simp [generateExternalAuthLocation, generateExternalAuthOAuth2Location, path_verifyUpstream]
    · simp [generateExternalAuthLocation, path_verifyUpstream]

/-- The policies so far: what they define and the locations they added. -/
structure HasPolicies (spec : PoliciesCfg) (done : List (RouteContext × PoliciesCfg))
    (st : GeneratorState) : Prop where
  heads : ∀ cfg ∈ spec :: done.map snd, HasPolicyHeads cfg
  claimSets : st.authJWTClaimSets =
    (spec :: done.map snd).flatMap fun cfg => cfg.rateLimit.authJWTClaimSets
  clientMap : ∀ k ∈ st.policies.apiKey.clientMap.keys, isPolicyVariable ("$" ++ k) = true
  urls : st.generatedExternalAuthURLs = (g.authStateOf (spec :: done.map snd)).urls
  oauth2 : st.generatedOAuth2Location = (g.authStateOf (spec :: done.map snd)).oauth2
  paths : st.specAuthLocations.map Location.path ++
      (st.groups.flatMap LocationGroup.authLocations).map Location.path =
    (g.authStateOf (spec :: done.map snd)).paths
  errorPages : ∀ loc ∈ st.specAuthLocations ++ st.groups.flatMap LocationGroup.authLocations,
    loc.errorPages = []

theorem mem_keys_serverPolicies {server cfg : PoliciesCfg} (hcfg : HasPolicyHeads cfg)
    (hserver : ∀ k ∈ server.apiKey.clientMap.keys, isPolicyVariable ("$" ++ k) = true) :
    ∀ k ∈ (serverPolicies server cfg).apiKey.clientMap.keys,
      isPolicyVariable ("$" ++ k) = true := by
  intro k hk
  unfold serverPolicies at hk
  dsimp only at hk
  split at hk
  · rename_i key _ hkey
    unfold insertIfAbsent at hk
    split at hk
    · exact hserver k hk
    obtain ⟨a, ha⟩ := Table.mem_keys_iff.mp hk
    rw [Table.get_insert] at ha
    split at ha
    · rename_i heq
      subst heq
      exact hcfg.apiKey key hkey
    · exact hserver k (Table.mem_keys_iff.mpr ⟨a, ha⟩)
  · exact hserver k hk

theorem hasPolicies_initialState {spec : PoliciesCfg} (hspec : HasPolicyHeads spec)
    (registered : OidcLocations) : g.HasPolicies spec [] (g.initialState spec registered) := by
  have hclient : ∀ k ∈ (serverPolicies spec spec).apiKey.clientMap.keys,
      isPolicyVariable ("$" ++ k) = true := by
    refine mem_keys_serverPolicies hspec ?_
    simp [hspec.clientMap]
  obtain ⟨_, ⟨upstreams, crUpstreams, rfl⟩, hinit⟩ : ∃ before : GeneratorState,
      (∃ upstreams crUpstreams, before = { addPolicyParts spec {
        policies := serverPolicies spec spec
        oidc := oidcAfter {} spec registered } with upstreams, crUpstreams }) ∧
      g.initialState spec registered =
        match spec.externalAuth with
        | some auth =>
          let namer := newUpstreamNamerForVirtualServer g.vsEx.virtualServer
          { g.addExternalAuth namer auth before with
            specAuthLocations := g.externalAuthLocations namer auth before }
        | none => before :=
    ⟨g.addUpstreams _, g.addUpstreams_frame _, rfl⟩
  rw [hinit]
  cases hauth : spec.externalAuth with
  | none =>
    have hstate : g.authStateOf (spec :: ([] : List (RouteContext × PoliciesCfg)).map snd) =
        {} := by
      simp [authStateOf, hauth]
    refine ⟨by simpa using hspec, by simp [addPolicyParts], hclient, ?_, ?_, ?_,
      by simp [addPolicyParts]⟩ <;> rw [hstate] <;> rfl
  | some auth =>
    have hstate : g.authStateOf (spec :: ([] : List (RouteContext × PoliciesCfg)).map snd) =
        g.authStep {} auth := by
      simp [authStateOf, hauth]
    set before : GeneratorState := { addPolicyParts spec _ with upstreams, crUpstreams }
    obtain ⟨hurls, hoauth2, hpaths⟩ := g.addExternalAuth_spec (s := {})
      (newUpstreamNamerForVirtualServer g.vsEx.virtualServer) auth
      (rfl : before.generatedExternalAuthURLs = _) rfl
    obtain ⟨upstreams', crUpstreams', urls, oauth2, hframe⟩ := g.addExternalAuth_frame
      (newUpstreamNamerForVirtualServer g.vsEx.virtualServer) auth before
    have hgroups : before.groups = [] := rfl
    refine ⟨by simpa using hspec, ?_, ?_, hstate ▸ hurls, hstate ▸ hoauth2, ?_, ?_⟩ <;> dsimp only
    · rw [hframe]
      simp [before, addPolicyParts]
    · rw [hframe]
      exact hclient
    · rw [hstate, ← hpaths, hframe]
      simp [before, addPolicyParts]
    · rw [hframe]
      simpa [hgroups] using g.errorPages_externalAuthLocations _ auth before

end

variable {g : Generator} {spec : PoliciesCfg} {done : List (RouteContext × PoliciesCfg)}
  {ctx : RouteContext} {cfg : PoliciesCfg} {registered : OidcLocations} {routing : RoutingCfg}
  {st st' : GeneratorState}

theorem addContextPolicies_spec (cfg : PoliciesCfg) (registered : OidcLocations) {s : AuthState}
    (hurls : st.generatedExternalAuthURLs = s.urls)
    (hoauth2 : st.generatedOAuth2Location = s.oauth2) :
    (g.addContextPolicies namer cfg registered st).generatedExternalAuthURLs =
        ((cfg.externalAuth.map (g.authStep s)).getD s).urls ∧
      (g.addContextPolicies namer cfg registered st).generatedOAuth2Location =
        ((cfg.externalAuth.map (g.authStep s)).getD s).oauth2 ∧
      s.paths ++ (g.contextAuthLocations namer cfg st).map Location.path =
        ((cfg.externalAuth.map (g.authStep s)).getD s).paths := by
  unfold addContextPolicies contextAuthLocations
  cases cfg.externalAuth with
  | none => exact ⟨hurls, hoauth2, by simp⟩
  | some auth =>
    exact g.addExternalAuth_spec namer auth hurls hoauth2

theorem HasPolicies.step (h : g.HasPolicies spec done st)
    (hstep : g.RenderStep ctx cfg registered routing st st') :
    g.HasPolicies spec (done ++ [(ctx, cfg)]) st' := by
  have hheads := hasPolicyHeads_generatePolicies hstep.policies
  have hcfgs : spec :: (done ++ [(ctx, cfg)]).map snd = (spec :: done.map snd) ++ [cfg] := by
    simp
  have hstate : g.authStateOf (spec :: (done ++ [(ctx, cfg)]).map snd) =
      (cfg.externalAuth.map (g.authStep (g.authStateOf (spec :: done.map snd)))).getD
        (g.authStateOf (spec :: done.map snd)) := by
    rw [hcfgs, authStateOf_concat]
    cases cfg.externalAuth <;> rfl
  obtain ⟨hurls, hoauth2, hpaths⟩ :=
    addContextPolicies_spec ctx.upstreamNamer cfg registered h.urls h.oauth2
  rw [← hstate] at hurls hoauth2 hpaths
  obtain ⟨upstreams, crUpstreams, urls, oauth2, hframe⟩ :=
    g.addContextPolicies_frame ctx.upstreamNamer cfg registered st
  refine ⟨?_, ?_, ?_, ?_, ?_, ?_, ?_⟩
  · intro cfg' hcfg'
    rw [hcfgs, mem_append, mem_singleton] at hcfg'
    rcases hcfg' with hcfg' | rfl
    · exact h.heads cfg' hcfg'
    · exact hheads
  · rw [hcfgs, flatMap_append, ← h.claimSets, hstep.next, hframe]
    simp [addRouting, addPolicyParts]
  · rw [hstep.next, hframe]
    exact mem_keys_serverPolicies hheads h.clientMap
  · rw [hstep.next]
    exact hurls
  · rw [hstep.next]
    exact hoauth2
  · rw [← hpaths, ← h.paths, hstep.next, hframe]
    simp [addRouting, addPolicyParts, groupOf]
  intro loc hloc
  have hcases : loc ∈ st.specAuthLocations ++ st.groups.flatMap LocationGroup.authLocations ∨
      loc ∈ g.contextAuthLocations ctx.upstreamNamer cfg st := by
    rw [hstep.next, hframe] at hloc
    simpa [addRouting, addPolicyParts, groupOf, or_assoc] using hloc
  rcases hcases with hloc | hloc
  · exact h.errorPages loc hloc
  · unfold contextAuthLocations at hloc
    split at hloc
    · exact g.errorPages_externalAuthLocations _ _ st loc hloc
    · cases hloc

end Generator

end IngressController.Configs
