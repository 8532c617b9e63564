import IngressController.Generator.VirtualServer
import IngressController.Library.Offsets

/-! # The contexts of a VirtualServer

Which routes and subroutes are rendered, with which policies and error pages, does not depend on
what was generated before. The two loops of the generator are one loop over these contexts.
-/

namespace IngressController.Configs

open Version2 Offsets List
open Option (bind_eq_some_iff bind_eq_bind bind_some map_some)

def pageCount (r : Route) : Nat := ((r.errorPages.getD []).filter (·.redirect.isNone)).length

def locatedPages (pages : List IngressController.ErrorPage) :
    List (IngressController.ErrorPage × Nat) :=
  pages.zipIdx.filter fun e => e.1.redirect.isNone

theorem length_locatedPages (pages : List IngressController.ErrorPage) :
    (locatedPages pages).length = (pages.filter (·.redirect.isNone)).length := by
  conv_rhs => rw [← zipIdx_map_fst 0 pages, filter_map, length_map]
  rfl

variable {index : Nat} {locations : List ErrorPageLocation}

theorem name_generateErrorPageLocations {pages : List IngressController.ErrorPage}
    (h : generateErrorPageLocations index pages = some locations) :
    locations.map ErrorPageLocation.name =
      (locatedPages pages).map fun e => generateErrorPageName index e.2 := by
  obtain ⟨lists, hlists, rfl⟩ : ∃ lists,
      pages.zipIdx.mapM (fun e => generateErrorPageLocation index e.1 e.2) = some lists ∧
        lists.flatten = locations := by
    simpa [generateErrorPageLocations, bind_eq_some_iff] using h
  unfold locatedPages
  generalize pages.zipIdx = numbered at hlists
  clear h
  induction numbered generalizing lists with
  | nil =>
    obtain rfl : lists = [] := by simpa using hlists.symm
    rfl
  | cons e numbered ih =>
    simp only [mapM_cons, bind_eq_bind, bind_eq_some_iff, Option.pure_def,
      Option.some.injEq] at hlists
    obtain ⟨first, hfirst, rest, hrest, rfl⟩ := hlists
    rw [flatten_cons, map_append, ih rest hrest]
    cases hredirect : e.1.redirect with
    | some redirect =>
      obtain rfl : [] = first := by simpa [generateErrorPageLocation, hredirect] using hfirst
      simp [hredirect]
    | none =>
      obtain ⟨ret, -, rfl⟩ := by
        simpa [generateErrorPageLocation, hredirect, bind_eq_some_iff] using hfirst
      simp [hredirect]

theorem length_generateErrorPageLocations {pages : List IngressController.ErrorPage}
    (h : generateErrorPageLocations index pages = some locations) :
    locations.length = (pages.filter (·.redirect.isNone)).length := by
  rw [← length_locatedPages, ← length_map, name_generateErrorPageLocations h, length_map]

def pageLocations : Nat → List Route → Option (List ErrorPageLocation)
  | _, [] => some []
  | index, r :: routes => do
      let locations ← generateErrorPageLocations index (r.errorPages.getD [])
      let rest ← pageLocations (index + pageCount r) routes
      some (locations ++ rest)

namespace GeneratorState

/-- The part of the state rendering neither reads nor changes. -/
def withPages (st : GeneratorState) (locations : List ErrorPageLocation) (inherited : Inherited) :
    GeneratorState :=
  { st with errorPageLocations := locations, inherited }

end GeneratorState

variable (namer : UpstreamNamer)

namespace Generator

variable (g : Generator) (inherited : Inherited) (e : Nat × Route)

def leave : Inherited :=
  match g.delegatedKeys e.2 with
  | some keys => recordInherited keys e.2 (errorPageDetails e.2 e.1) inherited
  | none => inherited

def routeContextOf : Option RouteContext :=
  if (g.delegatedKeys e.2).isNone then some (g.vsRouteContext e.2 (errorPageDetails e.2 e.1))
  else none

def subrouteContextOf (e : Nat × VirtualServerRoute × Route) : RouteContext :=
  g.subrouteContext e.2.1 e.2.2 (errorPageDetails e.2.2 e.1) inherited

def placedRoutes : List (Nat × Route) :=
  place pageCount 0 g.vsEx.virtualServer.spec.routes

/-- The subroutes with the numbers of their error pages, which follow those of the routes. -/
def placedSubroutes : List (Nat × VirtualServerRoute × Route) :=
  place (fun e => pageCount e.2) (total pageCount g.vsEx.virtualServer.spec.routes)
    (subroutesOf g.vsEx.virtualServerRoutes)

def inheritance : Inherited := g.placedRoutes.foldl g.leave {}

def contexts : List RouteContext :=
  g.placedRoutes.filterMap g.routeContextOf ++
    g.placedSubroutes.map (g.subrouteContextOf g.inheritance)

variable (key : String)

/-- A route refers to the VirtualServerRoute of a key. -/
def delegatesTo (r : Route) : Bool := key ∈ (g.delegatedKeys r).getD []

/-- What a route with a value leaves under a key. -/
def left {α : Type} (key : String) (r : Route) (isEmpty : Bool) (value : α) : Option α :=
  if g.delegatesTo key r && !isEmpty then some value else none

theorem get_recorded {α : Type} (keys : List String) (isEmpty : Bool) (value : α) (m : GoMap α)
    (key : String) :
    (if isEmpty = true then m else keys.foldl (fun m k => m.insert k value) m)[key]? =
      (if decide (key ∈ keys) && !isEmpty then some value else none).or m[key]? := by
  cases isEmpty with
  | true => simp
  | false =>
    have h := Table.get_foldl_insert keys (fun k => k) (fun _ => value) m key
    rw [map_id'] at h
    by_cases hkey : key ∈ keys <;> simpa [hkey] using h

theorem leave_errorPages : (g.leave inherited e).errorPages[key]? =
      (g.left key e.2 (e.2.errorPages.getD [] = []) (errorPageDetails e.2 e.1)).or
        inherited.errorPages[key]? := by
  unfold leave left delegatesTo
  cases g.delegatedKeys e.2 with
  | none => simp
  | some keys =>
    have h := get_recorded keys (e.2.errorPages.getD [] = []) (errorPageDetails e.2 e.1)
      inherited.errorPages key
    by_cases hempty : e.2.errorPages.getD [] = []
    · simp [recordInherited, errorPageDetails, hempty]
    · simpa [recordInherited, errorPageDetails, hempty] using h

theorem inheritance_errorPages :
    g.inheritance.errorPages[key]? = g.placedRoutes.reverse.findSome? fun e =>
      g.left key e.2 (e.2.errorPages.getD [] = []) (errorPageDetails e.2 e.1) := by
  have h := Table.foldl_lastWrite g.leave (·.errorPages[key]?) _
    (fun inherited e => g.leave_errorPages inherited e key) g.placedRoutes {}
  simpa [inheritance] using h

section

variable (st : GeneratorState) (locations : List ErrorPageLocation) (inherited : Inherited)

theorem addExternalAuth_withPages (auth : Version2.ExternalAuth) :
    g.addExternalAuth namer auth (st.withPages locations inherited) =
      (g.addExternalAuth namer auth st).withPages locations inherited := by
  unfold addExternalAuth
  by_cases h : auth.uri.internalPath ∈ st.generatedExternalAuthURLs
  · rw [if_pos h, if_pos (show auth.uri.internalPath ∈
      (st.withPages locations inherited).generatedExternalAuthURLs from h)]
  · rw [if_neg h, if_neg (show auth.uri.internalPath ∉
      (st.withPages locations inherited).generatedExternalAuthURLs from h)]
    rfl

theorem addContextPolicies_withPages (cfg : PoliciesCfg) (registered : OidcLocations) :
    g.addContextPolicies namer cfg registered (st.withPages locations inherited) =
      (g.addContextPolicies namer cfg registered st).withPages locations inherited := by
  unfold addContextPolicies
  cases cfg.externalAuth with
  | none => rfl
  | some auth =>
    have h := g.addExternalAuth_withPages namer { st with
      oidc := oidcAfter st.oidc cfg registered
      policies := serverPolicies st.policies cfg } locations inherited auth
    exact congrArg (addPolicyParts cfg) h

theorem renderRoute_withPages (ctx : RouteContext) :
    g.renderRoute (st.withPages locations inherited) ctx =
      (g.renderRoute st ctx).map (·.withPages locations inherited) := by
  unfold renderRoute
  have hoidc : (st.withPages locations inherited).oidc = st.oidc := rfl
  rw [hoidc]
  cases generatePolicies g.policyOptions g.vsEx.policies st.oidc ctx.policyContext
      ctx.policyRefs with
  | none => rfl
  | some result =>
    simp only [bind_eq_bind, bind_some, addContextPolicies_withPages]
    generalize g.addContextPolicies ctx.upstreamNamer result.1 result.2 st = st'
    have hparams : g.locationParams ctx (st'.withPages locations inherited) =
        g.locationParams ctx st' := rfl
    have hindex : routingIndex (st'.withPages locations inherited) = routingIndex st' := rfl
    rw [hparams, hindex]
    cases generateRouting (g.locationParams ctx st') g.variableNamer
        g.vsc.dynamicWeightChangesReload (routingIndex st') ctx.route <;> rfl

theorem vsRouteStep_withPages (r : Route) : g.vsRouteStep (st.withPages locations inherited) r =
      (generateErrorPageLocations locations.length (r.errorPages.getD [])).bind fun new =>
        ((g.routeContextOf (locations.length, r)).toList.foldlM g.renderRoute st).map
          (·.withPages (locations ++ new) (g.leave inherited (locations.length, r))) := by
  unfold vsRouteStep addErrorPages
  have hpages : errorPageDetails r (st.withPages locations inherited).errorPageLocations.length =
      errorPageDetails r locations.length := rfl
  rw [hpages]
  cases hnew : generateErrorPageLocations locations.length (r.errorPages.getD []) with
  | none => simp [errorPageDetails, hnew]
  | some new =>
    simp only [errorPageDetails, hnew, bind_eq_bind, bind_some, routeContextOf, leave]
    cases hkeys : g.delegatedKeys r with
    | some keys => simp [GeneratorState.withPages]
    | none =>
      have hrender := g.renderRoute_withPages st (locations ++ new) inherited
        (g.vsRouteContext r (errorPageDetails r locations.length))
      simpa [GeneratorState.withPages, errorPageDetails] using hrender

theorem subrouteStep_withPages (e : VirtualServerRoute × Route) :
    g.subrouteStep e.1 (st.withPages locations inherited) e.2 =
      (generateErrorPageLocations locations.length (e.2.errorPages.getD [])).bind fun new =>
        ([g.subrouteContextOf inherited (locations.length, e)].foldlM g.renderRoute st).map
          (·.withPages (locations ++ new) inherited) := by
  unfold subrouteStep addErrorPages
  have hpages : errorPageDetails e.2 (st.withPages locations inherited).errorPageLocations.length =
      errorPageDetails e.2 locations.length := rfl
  rw [hpages]
  cases hnew : generateErrorPageLocations locations.length (e.2.errorPages.getD []) with
  | none => simp [errorPageDetails, hnew]
  | some new =>
    have hrender := g.renderRoute_withPages st (locations ++ new) inherited
      (g.subrouteContextOf inherited (locations.length, e))
    simpa [errorPageDetails, hnew, GeneratorState.withPages, subrouteContextOf] using hrender

end

/-- A loop whose steps collect the error pages of a route, render its contexts and record what it
leaves does so for all of them. The contexts may depend on what does not change. -/
theorem foldlM_withPages {ε : Type} {step : GeneratorState → ε → Option GeneratorState}
    (route : ε → Route) (contextsOf : Nat × ε → List RouteContext)
    (leave : Inherited → Nat × ε → Inherited) {P : Inherited → Prop}
    (hleave : ∀ inherited e, P inherited → P (leave inherited e))
    (hstep : ∀ (st : GeneratorState) locations inherited e, P inherited →
      step (st.withPages locations inherited) e =
        (generateErrorPageLocations locations.length ((route e).errorPages.getD [])).bind fun new =>
          ((contextsOf (locations.length, e)).foldlM g.renderRoute st).map
            (·.withPages (locations ++ new) (leave inherited (locations.length, e))))
    (es : List ε) (st : GeneratorState) (locations : List ErrorPageLocation)
    (inherited : Inherited) (h : P inherited) :
    let placed := place (fun e => pageCount (route e)) locations.length es
    es.foldlM step (st.withPages locations inherited) =
      (pageLocations locations.length (es.map route)).bind fun new =>
        ((placed.flatMap contextsOf).foldlM g.renderRoute st).map
          (·.withPages (locations ++ new) (placed.foldl leave inherited)) := by
  induction es generalizing st locations inherited with
  | nil => simp [pageLocations]
  | cons e es ih =>
    rw [foldlM_cons, hstep _ _ _ _ h, map_cons, pageLocations]
    simp only [place_cons, flatMap_cons, foldl_cons, foldlM_append]
    cases hnew : generateErrorPageLocations locations.length ((route e).errorPages.getD []) with
    | none => rfl
    | some new =>
      have hlength : (locations ++ new).length = locations.length + pageCount (route e) := by
        rw [length_append, length_generateErrorPageLocations hnew, pageCount]
      cases (contextsOf (locations.length, e)).foldlM g.renderRoute st with
      | none => simp
      | some st' =>
        simp only [bind_some, map_some, bind_eq_bind]
        rw [ih _ _ _ (hleave _ _ h), hlength]
        cases pageLocations (locations.length + pageCount (route e)) (es.map route) with
        | none => rfl
        | some rest => simp [append_assoc]

theorem vsrs_foldlM_eq (vsrs : List VirtualServerRoute) (st : GeneratorState) :
    vsrs.foldlM g.vsrStep st =
      (subroutesOf vsrs).foldlM (fun st e => g.subrouteStep e.1 st e.2) st := by
  induction vsrs generalizing st with
  | nil => rfl
  | cons vsr vsrs ih =>
    have hcons : subroutesOf (vsr :: vsrs) =
        vsr.spec.subroutes.map (vsr, ·) ++ subroutesOf vsrs := by
      simp [subroutesOf]
    rw [hcons, foldlM_append, foldlM_map, foldlM_cons, vsrStep]
    exact congrArg _ (funext ih)

end Generator

/-- All routes and subroutes in the order their error pages are numbered. -/
def allRoutes (vsEx : VirtualServerEx) : List Route :=
  vsEx.virtualServer.spec.routes ++ (subroutesOf vsEx.virtualServerRoutes).map Prod.snd

theorem length_pageLocations {routes : List Route}
    (h : pageLocations index routes = some locations) :
    locations.length = total pageCount routes := by
  induction routes generalizing index locations with
  | nil =>
    obtain rfl : locations = [] := by simpa [pageLocations] using h.symm
    rfl
  | cons r routes ih =>
    simp only [pageLocations, bind_eq_bind, bind_eq_some_iff, Option.some.injEq] at h
    obtain ⟨first, hfirst, rest, hrest, rfl⟩ := h
    rw [length_append, length_generateErrorPageLocations hfirst, ih hrest, total_cons, pageCount]

theorem pageLocations_append (index : Nat) (routes routes' : List Route) :
    pageLocations index (routes ++ routes') = (pageLocations index routes).bind fun locations =>
        (pageLocations (index + total pageCount routes) routes').map (locations ++ ·) := by
  induction routes generalizing index with
  | nil => simp [pageLocations]
  | cons r routes ih =>
    rw [cons_append, pageLocations, pageLocations, ih, total_cons, Nat.add_assoc]
    cases generateErrorPageLocations index (r.errorPages.getD []) with
    | none => rfl
    | some first =>
      cases pageLocations (index + pageCount r) routes with
      | none => rfl
      | some rest =>
        simp only [bind_eq_bind, bind_some]
        cases pageLocations (index + (pageCount r + total pageCount routes)) routes' with
        | none => rfl
        | some rest' => simp [append_assoc]

namespace Generator

variable (g : Generator)

theorem foldl_addUpstream (us : List IngressController.Upstream) (st : GeneratorState) :
    ∃ upstreams crUpstreams, us.foldl (g.addUpstream namer) st = { st with
      upstreams, crUpstreams } := by
  induction us generalizing st with
  | nil => exact ⟨st.upstreams, st.crUpstreams, rfl⟩
  | cons u us ih =>
    obtain ⟨upstreams, crUpstreams, h⟩ := ih (g.addUpstream namer st u)
    exact ⟨upstreams, crUpstreams, h⟩

theorem addUpstreams_frame (st : GeneratorState) :
    ∃ upstreams crUpstreams, g.addUpstreams st = { st with upstreams, crUpstreams } := by
  unfold addUpstreams
  obtain ⟨upstreams, crUpstreams, h⟩ := g.foldl_addUpstream
    (newUpstreamNamerForVirtualServer g.vsEx.virtualServer) g.vsEx.virtualServer.spec.upstreams st
  dsimp only
  rw [h]
  generalize g.vsEx.virtualServerRoutes = vsrs
  clear h
  induction vsrs generalizing upstreams crUpstreams with
  | nil => exact ⟨upstreams, crUpstreams, rfl⟩
  | cons vsr vsrs ih =>
    obtain ⟨upstreams', crUpstreams', h⟩ := g.foldl_addUpstream
      (newUpstreamNamerForVirtualServerRoute g.vsEx.virtualServer vsr) vsr.spec.upstreams
      { st with upstreams, crUpstreams }
    rw [foldl_cons, h]
    exact ih upstreams' crUpstreams'

theorem initialState_withPages (cfg : PoliciesCfg) (locations : OidcLocations) :
    (g.initialState cfg locations).withPages [] {} = g.initialState cfg locations := by
  unfold initialState
  obtain ⟨upstreams, crUpstreams, h⟩ := g.addUpstreams_frame (addPolicyParts cfg {
    policies := serverPolicies cfg cfg
    oidc := oidcAfter {} cfg locations })
  dsimp only
  rw [h]
  cases cfg.externalAuth with
  | none => rfl
  | some auth =>
    dsimp only [addExternalAuth]
    split <;> rfl

end Generator

theorem startGenerator_spec {vsc : VirtualServerConfigurator} {vsEx : VirtualServerEx}
    {g : Generator} {st : GeneratorState} (h : startGenerator vsc vsEx = some (g, st)) :
    g.vsc = vsc ∧ g.vsEx = vsEx ∧
      ∃ cfg locations, generatePolicies g.policyOptions vsEx.policies {} g.specPolicyContext
          vsEx.virtualServer.spec.policies = some (cfg, locations) ∧
        g.specHasOIDC = cfg.oidc.isSome ∧ st = g.initialState cfg locations := by
  simp only [startGenerator, bind_eq_bind, bind_eq_some_iff, Option.some.injEq,
    Prod.mk.injEq] at h
  obtain ⟨ssl, hssl, ⟨cfg, locations⟩, hcfg, rfl, rfl⟩ := h
  exact ⟨rfl, rfl, cfg, locations, hcfg, rfl, rfl⟩

/-- The generation is one loop over the contexts. -/
theorem generateVirtualServer_eq (vsc : VirtualServerConfigurator) (vsEx : VirtualServerEx) :
    generateVirtualServer vsc vsEx = (startGenerator vsc vsEx).bind fun (g, st) =>
        (pageLocations 0 (allRoutes vsEx)).bind fun pages =>
          (g.contexts.foldlM g.renderRoute st).map fun st' =>
            (g, st'.withPages pages g.inheritance) := by
  unfold generateVirtualServer
  cases hstart : startGenerator vsc vsEx with
  | none => rfl
  | some start =>
    obtain ⟨g, st⟩ := start
    obtain ⟨-, hvsEx, cfg, registered, -, -, hst⟩ := startGenerator_spec hstart
    have hpages : st = st.withPages [] {} := by
      rw [hst]
      exact (g.initialState_withPages cfg registered).symm
    simp only [bind_eq_bind, bind_some]
    conv_lhs => rw [hpages]
    rw [g.foldlM_withPages id (fun e => (g.routeContextOf e).toList) g.leave (P := fun _ => True)
      (fun _ _ _ => trivial) (fun _ _ _ r _ => g.vsRouteStep_withPages _ _ _ r) _ _ _ _ trivial,
      allRoutes, pageLocations_append]
    simp only [length_nil, nil_append, Nat.zero_add, map_id, id, ← filterMap_eq_flatMap_toList]
    cases hroutes : pageLocations 0 vsEx.virtualServer.spec.routes with
    | none => rfl
    | some pages =>
      have hlength : pages.length = total pageCount vsEx.virtualServer.spec.routes :=
        length_pageLocations hroutes
      have hinherited : (place pageCount 0 vsEx.virtualServer.spec.routes).foldl g.leave {} =
          g.inheritance := by
        rw [Generator.inheritance, Generator.placedRoutes, hvsEx]
      rw [bind_some, hinherited, Generator.contexts, foldlM_append,
        Generator.placedRoutes, Generator.placedSubroutes, hvsEx]
      cases foldlM g.renderRoute st ((place pageCount 0
          vsEx.virtualServer.spec.routes).filterMap g.routeContextOf) with
      | none =>
        simp
      | some st' =>
        simp only [map_some, bind_some, bind_eq_bind]
        rw [g.vsrs_foldlM_eq, g.foldlM_withPages Prod.snd
          (fun e => [g.subrouteContextOf g.inheritance e]) (fun inherited _ => inherited)
          (P := (· = g.inheritance)) (fun _ _ h => h) (by
            rintro st locations _ e rfl
            exact g.subrouteStep_withPages st locations _ e) _ _ _ _ rfl, hlength,
          ← map_eq_flatMap, foldl_fixed]
        cases pageLocations (total pageCount vsEx.virtualServer.spec.routes)
            ((subroutesOf vsEx.virtualServerRoutes).map Prod.snd) with
        | none => rfl
        | some pages' =>
          simp only [bind_some, map_some, Option.bind_map]
          cases foldlM g.renderRoute st' _ <;> rfl

theorem generateVirtualServer_spec {vsc : VirtualServerConfigurator} {vsEx : VirtualServerEx}
    {g : Generator} {st : GeneratorState} (h : generateVirtualServer vsc vsEx = some (g, st)) :
    ∃ start st' pages, startGenerator vsc vsEx = some (g, start) ∧
      pageLocations 0 (allRoutes vsEx) = some pages ∧
        g.contexts.foldlM g.renderRoute start = some st' ∧
          st = st'.withPages pages g.inheritance := by
  simp only [generateVirtualServer_eq, bind_eq_some_iff, Option.map_eq_some_iff,
    Prod.mk.injEq] at h
  obtain ⟨⟨g', start⟩, hstart, pages, hpages, st', hrun, rfl, rfl⟩ := h
  exact ⟨start, st', pages, hstart, hpages, hrun, rfl⟩

namespace Generator

variable {g : Generator} {st st' : GeneratorState} {ctx : RouteContext}

/-- The policies of a context change nothing that is numbered. -/
theorem addContextPolicies_frame (g : Generator) (namer : UpstreamNamer) (cfg : PoliciesCfg)
    (registered : OidcLocations) (st : GeneratorState) :
    ∃ upstreams crUpstreams urls oauth2, g.addContextPolicies namer cfg registered st =
      addPolicyParts cfg { st with
        oidc := oidcAfter st.oidc cfg registered
        policies := serverPolicies st.policies cfg
        upstreams
        crUpstreams
        generatedExternalAuthURLs := urls
        generatedOAuth2Location := oauth2 } := by
  unfold addContextPolicies
  cases cfg.externalAuth with
  | none => exact ⟨_, _, _, _, rfl⟩
  | some auth =>
    dsimp only [addExternalAuth]
    split <;> exact ⟨_, _, _, _, rfl⟩

theorem routingIndex_addContextPolicies (g : Generator) (namer : UpstreamNamer)
    (cfg : PoliciesCfg) (registered : OidcLocations) (st : GeneratorState) :
    routingIndex (g.addContextPolicies namer cfg registered st) = routingIndex st := by
  obtain ⟨_, _, _, _, h⟩ := g.addContextPolicies_frame namer cfg registered st
  rw [h]
  rfl

theorem renderRoute_spec (h : g.renderRoute st ctx = some st') :
    ∃ cfg registered routing,
      generatePolicies g.policyOptions g.vsEx.policies st.oidc ctx.policyContext ctx.policyRefs =
        some (cfg, registered) ∧
      generateRouting
          (g.locationParams ctx (g.addContextPolicies ctx.upstreamNamer cfg registered st))
          g.variableNamer g.vsc.dynamicWeightChangesReload (routingIndex st) ctx.route =
        some routing ∧
      st' = addRouting ctx routing (g.groupOf ctx (inheritFromServer g.specHasOIDC st.policies cfg)
          (g.contextAuthLocations ctx.upstreamNamer cfg st) routing)
        (g.addContextPolicies ctx.upstreamNamer cfg registered st) := by
  simp only [renderRoute, bind_eq_bind, bind_eq_some_iff, Option.some.injEq,
    routingIndex_addContextPolicies] at h
  obtain ⟨⟨cfg, registered⟩, hcfg, routing, hrouting, rfl⟩ := h
  exact ⟨cfg, registered, routing, hcfg, hrouting, rfl⟩

end Generator

end IngressController.Configs
