import IngressController.Generator.Contexts
import IngressController.Generator.PlacedTargets

/-! # Runs of the generator

Which policies a context has depends on earlier contexts only through OpenID Connect. With the
settings of all contexts at hand, what holds after a run follows from what one step preserves.
-/

namespace IngressController.Configs

open Version2 Offsets List Option

namespace Generator

/-- One rendered context: its settings, its routing and the state after it. -/
structure RenderStep (g : Generator) (ctx : RouteContext) (cfg : PoliciesCfg)
    (registered : OidcLocations) (routing : RoutingCfg) (st st' : GeneratorState) : Prop where
  policies : generatePolicies g.policyOptions g.vsEx.policies st.oidc ctx.policyContext
    ctx.policyRefs = some (cfg, registered)
  generated : generateRouting
      (g.locationParams ctx (g.addContextPolicies ctx.upstreamNamer cfg registered st))
      g.variableNamer g.vsc.dynamicWeightChangesReload (routingIndex st) ctx.route = some routing
  next : st' = addRouting ctx routing
    (g.groupOf ctx (inheritFromServer g.specHasOIDC st.policies cfg)
      (g.contextAuthLocations ctx.upstreamNamer cfg st) routing)
    (g.addContextPolicies ctx.upstreamNamer cfg registered st)

variable {st st' : GeneratorState}

theorem renderStep_of_renderRoute {g : Generator} {ctx : RouteContext}
    (h : g.renderRoute st ctx = some st') :
    ∃ cfg registered routing, g.RenderStep ctx cfg registered routing st st' := by
  obtain ⟨cfg, registered, routing, hpolicies, hrouting, hnext⟩ := renderRoute_spec h
  exact ⟨cfg, registered, routing, hpolicies, hrouting, hnext⟩

theorem RenderStep.oidc {g : Generator} {ctx : RouteContext} {cfg : PoliciesCfg}
    {registered : OidcLocations} {routing : RoutingCfg}
    (h : g.RenderStep ctx cfg registered routing st st') :
    st'.oidc = oidcAfter st.oidc cfg registered := by
  obtain ⟨_, _, _, _, hframe⟩ := g.addContextPolicies_frame ctx.upstreamNamer cfg registered st
  rw [h.next, hframe]
  rfl

theorem addExternalAuth_frame (g : Generator) (namer : UpstreamNamer) (auth : Version2.ExternalAuth)
    (st : GeneratorState) :
    ∃ upstreams crUpstreams urls oauth2, g.addExternalAuth namer auth st = { st with
      upstreams
      crUpstreams
      generatedExternalAuthURLs := urls
      generatedOAuth2Location := oauth2 } := by
  unfold addExternalAuth
  split <;> exact ⟨_, _, _, _, rfl⟩

/-- The start has the parts of the policies of the VirtualServer and nothing of any route. -/
theorem initialState_frame (g : Generator) (spec : PoliciesCfg) (registered : OidcLocations) :
    ∃ upstreams crUpstreams authLocations urls oauth2, g.initialState spec registered =
      addPolicyParts spec {
        policies := serverPolicies spec spec
        oidc := oidcAfter {} spec registered
        upstreams
        crUpstreams
        specAuthLocations := authLocations
        generatedExternalAuthURLs := urls
        generatedOAuth2Location := oauth2 } := by
  unfold initialState
  obtain ⟨upstreams, crUpstreams, hupstreams⟩ := g.addUpstreams_frame (addPolicyParts spec {
    policies := serverPolicies spec spec
    oidc := oidcAfter {} spec registered })
  dsimp only
  rw [hupstreams]
  cases spec.externalAuth with
  | none => exact ⟨upstreams, crUpstreams, [], [], false, rfl⟩
  | some auth =>
    dsimp only
    obtain ⟨upstreams', crUpstreams', urls, oauth2, hauth⟩ := g.addExternalAuth_frame
      (newUpstreamNamerForVirtualServer g.vsEx.virtualServer) auth { addPolicyParts spec {
        policies := serverPolicies spec spec
        oidc := oidcAfter {} spec registered } with upstreams, crUpstreams }
    rw [hauth]
    exact ⟨upstreams', crUpstreams', _, urls, oauth2, rfl⟩

section

variable (g : Generator)

def contextPolicies : OidcState → List RouteContext → Option (List PoliciesCfg)
  | _, [] => some []
  | oidc, ctx :: ctxs => do
      let (cfg, registered) ← generatePolicies g.policyOptions g.vsEx.policies oidc
        ctx.policyContext ctx.policyRefs
      let cfgs ← contextPolicies (oidcAfter oidc cfg registered) ctxs
      some (cfg :: cfgs)

def policiesOf : Option (PoliciesCfg × List PoliciesCfg) := do
  let (spec, registered) ← generatePolicies g.policyOptions g.vsEx.policies {}
    g.specPolicyContext g.vsEx.virtualServer.spec.policies
  let cfgs ← g.contextPolicies (oidcAfter {} spec registered) g.contexts
  some (spec, cfgs)

end

variable {g : Generator} {P : List (RouteContext × PoliciesCfg) → GeneratorState → Prop}

/-- What one step preserves, with the contexts so far and their settings, a run preserves. -/
theorem run_invariant (hstep : ∀ done ctx cfg registered routing st st',
      g.RenderStep ctx cfg registered routing st st' → P done st → P (done ++ [(ctx, cfg)]) st')
    {ctxs : List RouteContext} {done : List (RouteContext × PoliciesCfg)}
    (hst : P done st) (h : ctxs.foldlM g.renderRoute st = some st') :
    ∃ cfgs, g.contextPolicies st.oidc ctxs = some cfgs ∧ P (done ++ ctxs.zip cfgs) st' := by
  induction ctxs generalizing done st with
  | nil =>
    cases h
    exact ⟨[], rfl, by simpa using hst⟩
  | cons ctx ctxs ih =>
    simp only [foldlM_cons, bind_eq_bind, bind_eq_some_iff] at h
    obtain ⟨next, hnext, hrest⟩ := h
    obtain ⟨cfg, registered, routing, hrender⟩ := renderStep_of_renderRoute hnext
    obtain ⟨cfgs, hcfgs, hP⟩ := ih (hstep done ctx cfg registered routing st next hrender hst) hrest
    rw [hrender.oidc] at hcfgs
    refine ⟨cfg :: cfgs, ?_, ?_⟩
    · simp [contextPolicies, hrender.policies, hcfgs]
    · simpa using hP

theorem length_contextPolicies {oidc : OidcState} {ctxs : List RouteContext}
    {cfgs : List PoliciesCfg} (h : g.contextPolicies oidc ctxs = some cfgs) :
    cfgs.length = ctxs.length := by
  induction ctxs generalizing oidc cfgs with
  | nil =>
    cases h
    rfl
  | cons ctx ctxs ih =>
    simp only [contextPolicies, bind_eq_bind, bind_eq_some_iff,
      some.injEq] at h
    obtain ⟨⟨cfg, registered⟩, -, rest, hrest, rfl⟩ := h
    rw [length_cons, length_cons, ih hrest]

theorem length_policiesOf {spec : PoliciesCfg} {cfgs : List PoliciesCfg}
    (h : g.policiesOf = some (spec, cfgs)) : cfgs.length = g.contexts.length := by
  simp only [policiesOf, bind_eq_bind, bind_eq_some_iff, some.injEq,
    Prod.mk.injEq] at h
  obtain ⟨⟨spec', registered⟩, -, cfgs', hcfgs, rfl, rfl⟩ := h
  exact length_contextPolicies hcfgs

end Generator

/-- The same from the start of the generation on, for the state before the locations of error
pages are added. -/
theorem generateVirtualServer_invariant {vsc : VirtualServerConfigurator} {vsEx : VirtualServerEx}
    {g : Generator} {st : GeneratorState}
    {P : PoliciesCfg → List (RouteContext × PoliciesCfg) → GeneratorState → Prop}
    (hstart : ∀ spec registered, generatePolicies g.policyOptions g.vsEx.policies {}
        g.specPolicyContext g.vsEx.virtualServer.spec.policies = some (spec, registered) →
      g.specHasOIDC = spec.oidc.isSome → P spec [] (g.initialState spec registered))
    (hstep : ∀ spec done ctx cfg registered routing st st',
      g.RenderStep ctx cfg registered routing st st' → P spec done st →
        P spec (done ++ [(ctx, cfg)]) st')
    (h : generateVirtualServer vsc vsEx = some (g, st)) :
    ∃ spec cfgs st' pages, g.policiesOf = some (spec, cfgs) ∧
      P spec (g.contexts.zip cfgs) st' ∧ pageLocations 0 (allRoutes vsEx) = some pages ∧
        st = st'.withPages pages g.inheritance := by
  obtain ⟨start, st', pages, hgen, hpages, hrun, rfl⟩ := generateVirtualServer_spec h
  obtain ⟨-, rfl, spec, registered, hspec, hoidc, rfl⟩ := startGenerator_spec hgen
  obtain ⟨cfgs, hcfgs, hP⟩ := Generator.run_invariant (hstep spec)
    (hstart spec registered hspec hoidc) hrun
  refine ⟨spec, cfgs, st', pages, ?_, by simpa using hP, hpages, rfl⟩
  have hstate : (g.initialState spec registered).oidc = Generator.oidcAfter {} spec registered := by
    obtain ⟨_, _, _, _, _, hframe⟩ := g.initialState_frame spec registered
    rw [hframe]
    rfl
  rw [hstate] at hcfgs
  simp [Generator.policiesOf, hspec, hcfgs]

def returnCount (r : Route) : Nat := (routeActions r).countP isReturn

def policyMaps (cfg : PoliciesCfg) : List Map :=
  cfg.rateLimit.groupMaps ++ cfg.rateLimit.policyGroupMaps ++ cfg.corsMap.toList

namespace Generator

section

variable (g : Generator)

def numbered (done : List (RouteContext × PoliciesCfg)) : List (Nat × Nat × Route) :=
  numberedRoutes g.vsc.dynamicWeightChangesReload (done.map (·.1.route))

def partsOf (e : Nat × Nat × Route) : RoutingParts :=
  routeParts g.variableNamer g.vsc.dynamicWeightChangesReload e

def redirectsOf (e : Nat × Nat × Route) : List InternalRedirectLocation :=
  (redirectOf g.variableNamer g.vsc.dynamicWeightChangesReload e.2.1 e.1 e.2.2).toList

/-- The state holds what the contexts so far generate, in their order. -/
structure HasRouting (spec : PoliciesCfg) (done : List (RouteContext × PoliciesCfg))
    (st : GeneratorState) : Prop where
  matchesRoutes : st.matchesRoutes = total matchesCount (done.map (·.1.route))
  maps : st.maps = policyMaps spec ++ (done.zip (g.numbered done)).flatMap fun e =>
    policyMaps e.1.2 ++ (g.partsOf e.2).maps
  splitClients : st.splitClients = (g.numbered done).flatMap fun e => (g.partsOf e).splitClients
  keyValZones : st.keyValZones = (g.numbered done).flatMap fun e => (g.partsOf e).keyValZones
  keyVals : st.keyVals = (g.numbered done).flatMap fun e => (g.partsOf e).keyVals
  twoWaySplitClients : st.twoWaySplitClients =
    (g.numbered done).flatMap fun e => (g.partsOf e).twoWaySplitClients
  redirects : st.internalRedirectLocations = (g.numbered done).flatMap g.redirectsOf
  paths : (st.groups.flatMap LocationGroup.locations).map Location.path =
    (g.numbered done).flatMap (routePaths g.vsc.dynamicWeightChangesReload)
  returns : st.returnLocations.map ReturnLocation.name =
    (range (total returnCount (done.map (·.1.route)))).map returnLocationName

theorem numbered_concat (done : List (RouteContext × PoliciesCfg)) (ctx : RouteContext)
    (cfg : PoliciesCfg) :
    g.numbered (done ++ [(ctx, cfg)]) = g.numbered done ++
      [(total (splitClientsCount g.vsc.dynamicWeightChangesReload) (done.map (·.1.route)),
        total matchesCount (done.map (·.1.route)), ctx.route)] := by
  rw [numbered, map_append, map_singleton, numberedRoutes_concat]
  rfl

theorem hasRouting_initialState (spec : PoliciesCfg) (registered : OidcLocations) :
    g.HasRouting spec [] (g.initialState spec registered) := by
  obtain ⟨_, _, _, _, _, hframe⟩ := g.initialState_frame spec registered
  rw [hframe]
  exact ⟨rfl, by simp [addPolicyParts, policyMaps], rfl, rfl, rfl, rfl, rfl, rfl, rfl⟩

end

variable {g : Generator} {spec : PoliciesCfg} {done : List (RouteContext × PoliciesCfg)}
  {ctx : RouteContext} {cfg : PoliciesCfg} {registered : OidcLocations} {routing : RoutingCfg}
  {st st' : GeneratorState} (h : g.HasRouting spec done st)
include h

theorem HasRouting.length_splitClients : st.splitClients.length =
      total (splitClientsCount g.vsc.dynamicWeightChangesReload) (done.map (·.1.route)) := by
  have hlength : (g.numbered done).map (fun e => (g.partsOf e).splitClients.length) =
      (g.numbered done).map fun e => splitClientsCount g.vsc.dynamicWeightChangesReload e.2.2 :=
    map_congr_left fun e _ => length_routeParts _ _ e
  rw [h.splitClients, length_flatMap, hlength]
  exact (total_place _ (fun e : Nat × Route => splitClientsCount _ e.2) _ _).trans
    (total_place _ _ _ _)

theorem HasRouting.routingIndex_eq : routingIndex st = {
      matchesRoutes := total matchesCount (done.map (·.1.route))
      splitClients :=
        total (splitClientsCount g.vsc.dynamicWeightChangesReload) (done.map (·.1.route))
      returnLocations := total returnCount (done.map (·.1.route)) } := by
  have hreturns := congrArg length h.returns
  rw [length_map, length_map, length_range] at hreturns
  rw [routingIndex, h.matchesRoutes, h.length_splitClients, hreturns]

theorem HasRouting.step (hstep : g.RenderStep ctx cfg registered routing st st') :
    g.HasRouting spec (done ++ [(ctx, cfg)]) st' := by
  have hgenerated := hstep.generated
  rw [h.routingIndex_eq] at hgenerated
  obtain ⟨hlocations, hparts, hredirect⟩ := generateRouting_spec hgenerated
  obtain ⟨upstreams, crUpstreams, urls, oauth2, hframe⟩ :=
    g.addContextPolicies_frame ctx.upstreamNamer cfg registered st
  have hlength : done.length = (g.numbered done).length := by simp [numbered]
  -- what is generated besides locations is that of the numbered route
  have hpartsOf : g.partsOf
      (total (splitClientsCount g.vsc.dynamicWeightChangesReload) (done.map (·.1.route)),
        total matchesCount (done.map (·.1.route)), ctx.route) =
      { routing.toRoutingParts with locations := [], returnLocations := [] } := hparts.symm
  rw [hstep.next, hframe]
  refine ⟨?_, ?_, ?_, ?_, ?_, ?_, ?_, ?_, ?_⟩
  · rw [map_append, total_append, ← h.matchesRoutes]
    by_cases hmatches : ctx.route.routeMatches = [] <;>
      simp [addRouting, addPolicyParts, matchesCount, hmatches]
  · rw [g.numbered_concat, zip_append hlength, flatMap_append, ← append_assoc, ← h.maps]
    simp [addRouting, addPolicyParts, policyMaps, hpartsOf]
  · rw [g.numbered_concat, flatMap_append, ← h.splitClients]
    simp [addRouting, addPolicyParts, hpartsOf]
  · rw [g.numbered_concat, flatMap_append, ← h.keyValZones]
    simp [addRouting, addPolicyParts, hpartsOf]
  · rw [g.numbered_concat, flatMap_append, ← h.keyVals]
    simp [addRouting, addPolicyParts, hpartsOf]
  · rw [g.numbered_concat, flatMap_append, ← h.twoWaySplitClients]
    simp [addRouting, addPolicyParts, hpartsOf]
  · rw [g.numbered_concat, flatMap_append, ← h.redirects]
    simp [addRouting, addPolicyParts, redirectsOf, hredirect]
  · rw [g.numbered_concat, flatMap_append, ← h.paths]
    have hpaths := hlocations.paths
    simp [addRouting, addPolicyParts, groupOf, addPoliciesCfgToLocation, ← hpaths]
  · rw [map_append, total_append, range_add, map_append, ← h.returns]
    have hreturns := hlocations.returns
    rw [range'_eq_map_range] at hreturns
    simp [addRouting, addPolicyParts, hreturns, returnCount]

omit h

end Generator

end IngressController.Configs
