import IngressController.Configuration.LocationPaths
import IngressController.Generator.CompletePolicies
import IngressController.Generator.Contexts

/-! # Accepted specs and the generator

Where the generator dereferences an action, the validator has made sure that there is one, but for
one case: a subroute may have a `routeSelector` instead of an action, which the generator only
handles in routes of a VirtualServer.
-/

namespace IngressController.Configs

open GoPanic Validation Offsets List
open Option (isSome_iff_exists)

/-! ## Routing with actions -/

def PagesDefined (pages : List IngressController.ErrorPage) : Prop :=
  ∀ e ∈ pages, e.redirect.isSome ∨ e.ret.isSome

section

variable {pages : List IngressController.ErrorPage} (h : PagesDefined pages) (index : Nat)
include h

theorem PagesDefined.cases {e : IngressController.ErrorPage} {i : Nat}
    (he : (e, i) ∈ pages.zipIdx) :
    (∃ redirect, e.redirect = some redirect) ∨ e.redirect = none ∧ ∃ ret, e.ret = some ret := by
  have hpage := h e (fst_mem_of_mem_zipIdx he)
  rw [isSome_iff_exists, isSome_iff_exists] at hpage
  cases hredirect : e.redirect with
  | some redirect => exact .inl ⟨redirect, rfl⟩
  | none => exact .inr ⟨rfl, hpage.resolve_left (by simp [hredirect])⟩

theorem isSome_generateErrorPages : (generateErrorPages index pages).isSome := by
  refine isSome_mapM fun ⟨e, i⟩ he => ?_
  rcases h.cases he with ⟨redirect, h⟩ | ⟨h, ret, hret⟩ <;> simp [generateErrorPage, *]

theorem isSome_generateErrorPageLocations : (generateErrorPageLocations index pages).isSome := by
  have hlists : (pages.zipIdx.mapM fun (e, i) => generateErrorPageLocation index e i).isSome := by
    refine isSome_mapM fun ⟨e, i⟩ he => ?_
    rcases h.cases he with ⟨redirect, h⟩ | ⟨h, ret, hret⟩ <;> simp [generateErrorPageLocation, *]
  obtain ⟨lists, hlists⟩ := isSome_iff_exists.mp hlists
  simp [generateErrorPageLocations, hlists]

end

theorem isSome_pageLocations {routes : List Route}
    (h : ∀ r ∈ routes, PagesDefined (r.errorPages.getD [])) (index : Nat) :
    (pageLocations index routes).isSome := by
  induction routes generalizing index with
  | nil => rfl
  | cons r routes ih =>
    obtain ⟨first, hfirst⟩ := isSome_iff_exists.mp
      (isSome_generateErrorPageLocations (h r (by simp)) index)
    obtain ⟨rest, hrest⟩ := isSome_iff_exists.mp
      (ih (fun r' hr' => h r' (by simp [hr'])) (index + pageCount r))
    simp [pageLocations, hfirst, hrest]

variable {params : LocationParams} (hpages : PagesDefined params.errorPages.pages)
include hpages

theorem isSome_locationOfAction_iff (path : String) (action : Option Action) (internal : Bool)
    (retLocIndex : Nat) :
    (locationOfAction params path action internal retLocIndex).isSome ↔ action.isSome := by
  cases action with
  | none => simp [locationOfAction]
  | some action =>
    obtain ⟨pages, hpages⟩ := isSome_iff_exists.mp
      (isSome_generateErrorPages hpages params.errorPages.index)
    simp only [locationOfAction, Option.bind_eq_bind, Option.bind_some, generateLocation]
    split <;> simp [generateLocationForProxying, hpages]

theorem isSome_actionParts_iff (path : String) (action : Option Action) (internal : Bool)
    (retLocIndex : Nat) :
    (actionParts params path action internal retLocIndex).isSome ↔ action.isSome := by
  rw [← isSome_locationOfAction_iff hpages path action internal retLocIndex, actionParts]
  cases locationOfAction params path action internal retLocIndex <;> simp

def SplitsDefined (splits : List Split) : Prop := ∀ s ∈ splits, s.action.isSome

variable {splits : List Split} (namer : VariableNamer) (dynamicReload : Bool)

theorem isSome_generateSplits (scIndex retLocIndex : Nat) (hsplits : SplitsDefined splits) :
    (generateSplits params namer dynamicReload scIndex retLocIndex splits).isSome := by
  have hlocations : (splitLocations params scIndex retLocIndex splits).isSome := by
    rw [splitLocations, isSome_foldlM_iff (P := fun e => e.1.action.isSome)]
    · exact fun e he => hsplits e.1 (fst_mem_of_mem_zipIdx he)
    intro e _ acc
    rw [← isSome_actionParts_iff hpages (splitLocationPath scIndex e.2) e.1.action true
      (retLocIndex + acc.returnLocations.length), splitStep]
    cases actionParts params (splitLocationPath scIndex e.2) e.1.action true
        (retLocIndex + acc.returnLocations.length) <;> simp
  obtain ⟨locations, hlocations⟩ := isSome_iff_exists.mp hlocations
  simp [generateSplits, hlocations]

/-- A match or the default of a route leads somewhere. -/
def TargetDefined (splits : List Split) (action : Option Action) : Prop :=
  splits ≠ [] ∨ action.isSome

theorem isSome_targetParts_iff
    (scIndex retLocIndex : Nat) (path : String) (hsplits : SplitsDefined splits)
    (action : Option Action) (acc : RoutingParts) :
    (targetParts params namer dynamicReload scIndex retLocIndex path splits action acc).isSome ↔
      TargetDefined splits action := by
  unfold targetParts TargetDefined
  by_cases hnil : splits = []
  · rw [if_pos hnil]
    have h := isSome_actionParts_iff hpages path action true
      (retLocIndex + acc.returnLocations.length)
    cases hparts : actionParts params path action true
        (retLocIndex + acc.returnLocations.length) <;> simpa [hnil, hparts] using h
  · rw [if_neg hnil]
    obtain ⟨parts, hparts⟩ := isSome_iff_exists.mp (isSome_generateSplits hpages namer
      dynamicReload (scIndex + acc.splitClients.length) (retLocIndex + acc.returnLocations.length)
      hsplits)
    simp [hnil, hparts]

structure MatchesDefined (r : Route) : Prop where
  splits : SplitsDefined r.splits
  matchSplits : ∀ m ∈ r.routeMatches, SplitsDefined m.splits
  target : ∀ m ∈ r.routeMatches, TargetDefined m.splits m.action

/-- Such a route is generated exactly if its default leads somewhere. -/
theorem isSome_generateRouting_iff (index : RoutingIndex) {r : Route} (hr : MatchesDefined r) :
    (generateRouting params namer dynamicReload index r).isSome ↔
      TargetDefined r.splits r.action := by
  unfold generateRouting
  split
  · have hmatches : (r.routeMatches.zipIdx.foldlM (matchStep params namer dynamicReload
        index.matchesRoutes index.splitClients index.returnLocations) {}).isSome := by
      rw [isSome_foldlM_iff (P := fun e => TargetDefined e.1.splits e.1.action)]
      · exact fun e he => hr.target e.1 (fst_mem_of_mem_zipIdx he)
      · intro e he acc
        exact isSome_targetParts_iff hpages namer dynamicReload _ _ _
          (hr.matchSplits e.1 (fst_mem_of_mem_zipIdx he)) e.1.action acc
    obtain ⟨acc, hacc⟩ := isSome_iff_exists.mp hmatches
    have hdefault := isSome_targetParts_iff hpages namer dynamicReload index.splitClients
      index.returnLocations (defaultLocationPath index.matchesRoutes) hr.splits r.action acc
    rw [← hdefault, generateMatchesConfig, matchesParts, hacc]
    cases hparts : targetParts params namer dynamicReload index.splitClients index.returnLocations
      (defaultLocationPath index.matchesRoutes) r.splits r.action acc <;> simp [hparts]
  · split
    · rename_i hsplits
      obtain ⟨parts, hparts⟩ := isSome_iff_exists.mp (isSome_generateSplits hpages namer
        dynamicReload index.splitClients index.returnLocations hr.splits)
      simp [generateDefaultSplitsConfig, hparts, TargetDefined, hsplits]
    · rename_i hsplits
      have h := isSome_actionParts_iff hpages r.path r.action false index.returnLocations
      cases hparts : actionParts params r.path r.action false index.returnLocations <;>
        simpa [hparts, TargetDefined, hsplits] using h

omit hpages

section Accepted

variable {r : Route} {isRouteFieldForbidden : Bool}

theorem pagesDefined_of_accepted (h : AcceptedRoute r isRouteFieldForbidden) :
    PagesDefined (r.errorPages.getD []) := by
  intro e he
  have hsingle := (h.errorPage e he).single
  by_contra hneither
  simp only [not_or] at hneither
  simp [countSet, hneither.1, hneither.2] at hsingle

theorem splitsDefined_of_accepted (h : AcceptedSplits splits) : SplitsDefined splits := by
  intro s hs
  obtain ⟨a, ha, -⟩ := h.action s hs
  simp [ha]

theorem targetDefined_of_accepted {m : Match} (h : AcceptedMatch m) :
    TargetDefined m.splits m.action := by
  have hsingle := h.single
  by_contra hneither
  simp only [TargetDefined, not_or, not_not] at hneither
  simp [countSet, hneither.1, hneither.2] at hsingle

theorem matchesDefined_of_accepted (h : AcceptedRoute r isRouteFieldForbidden) :
    MatchesDefined r where
  splits := splitsDefined_of_accepted h.splits
  matchSplits m hm := splitsDefined_of_accepted (h.routeMatch m hm).splits
  target m hm := targetDefined_of_accepted (h.routeMatch m hm)

/-- An accepted route has one of four fields. Without `route`, a selector is all that can stand in
the place of an action. -/
theorem targetDefined_iff_of_accepted (h : AcceptedRoute r isRouteFieldForbidden)
    (hroute : r.route = "") : TargetDefined r.splits r.action ↔ r.routeSelector = none := by
  have hsingle := h.single
  unfold TargetDefined
  cases hselector : r.routeSelector with
  | none =>
    refine ⟨fun _ => rfl, fun _ => ?_⟩
    by_contra hneither
    simp only [not_or, not_not] at hneither
    simp [VirtualServerValidator.routeFieldCount, countSet, hselector, hneither.1, hneither.2,
      hroute] at hsingle
  | some selector =>
    refine ⟨fun hsome => ?_, fun hnone => by cases hnone⟩
    obtain hsplits | haction := hsome
    · cases ha : r.action.isSome <;>
        simp [VirtualServerValidator.routeFieldCount, countSet, hselector, hsplits, ha,
          hroute] at hsingle
    · by_cases hsplits : r.splits = [] <;>
        simp [VirtualServerValidator.routeFieldCount, countSet, hselector, hsplits, haction,
          hroute] at hsingle

end Accepted

/-- The routes of a VirtualServer and the subroutes attached to it are accepted. -/
structure AcceptedSpecs (vsEx : VirtualServerEx) : Prop where
  route : ∀ r ∈ vsEx.virtualServer.spec.routes, AcceptedRoute r false
  subroute : ∀ vsr ∈ vsEx.virtualServerRoutes, ∀ r ∈ vsr.spec.subroutes, AcceptedRoute r true

/-- Everything a route may lead to but its default is there. -/
structure DefinedRoute (r : Route) : Prop extends MatchesDefined r where
  pages : PagesDefined (r.errorPages.getD [])

variable {vsEx : VirtualServerEx}

theorem AcceptedSpecs.accepted (h : AcceptedSpecs vsEx) {r : Route} (hr : r ∈ allRoutes vsEx) :
    ∃ isRouteFieldForbidden, AcceptedRoute r isRouteFieldForbidden := by
  rcases mem_append.mp hr with hr | hr
  · exact ⟨false, h.route r hr⟩
  · obtain ⟨e, he, rfl⟩ := mem_map.mp hr
    obtain ⟨hvsr, hr⟩ := mem_subroutesOf.mp he
    exact ⟨true, h.subroute e.1 hvsr e.2 hr⟩

theorem AcceptedSpecs.definedRoute (h : AcceptedSpecs vsEx) {r : Route}
    (hr : r ∈ allRoutes vsEx) : DefinedRoute r := by
  obtain ⟨_, haccepted⟩ := h.accepted hr
  exact ⟨matchesDefined_of_accepted haccepted, pagesDefined_of_accepted haccepted⟩

/-- The routes that become locations, in the order they are rendered. -/
def renderedRoutes (vsEx : VirtualServerEx) : List Route :=
  vsEx.virtualServer.spec.routes.filter rendersLocations ++
    (subroutesOf vsEx.virtualServerRoutes).map Prod.snd

namespace Generator

variable {g : Generator}

theorem delegatedKeys_eq_none {r : Route} :
    g.delegatedKeys r = none ↔ r.route = "" ∧ r.routeSelector = none := by
  unfold delegatedKeys
  split <;> simp_all

variable {ctx : RouteContext}

/-- A context is that of a route which does not delegate, or of a subroute. -/
theorem mem_contexts :
    ctx ∈ g.contexts ↔ (∃ e ∈ g.placedRoutes, g.delegatedKeys e.2 = none ∧
        ctx = g.vsRouteContext e.2 (errorPageDetails e.2 e.1)) ∨
      ∃ e ∈ g.placedSubroutes, ctx = g.subrouteContextOf g.inheritance e := by
  simp only [contexts, mem_append, mem_filterMap, mem_map, routeContextOf,
    Option.ite_none_right_eq_some, Option.isNone_iff_eq_none, Option.some.injEq]
  simp only [@eq_comm RouteContext ctx]

theorem route_contexts : g.contexts.map RouteContext.route = renderedRoutes g.vsEx := by
  have hroute : ∀ e : Nat × Route, (g.routeContextOf e).map RouteContext.route =
      if rendersLocations e.2 then some e.2 else none := by
    intro e
    unfold routeContextOf
    by_cases hnone : g.delegatedKeys e.2 = none
    · obtain ⟨hroute, hselector⟩ := delegatedKeys_eq_none.mp hnone
      simp [hnone, rendersLocations, hroute, hselector, vsRouteContext]
    · have hrenders : rendersLocations e.2 = false := by
        rw [delegatedKeys_eq_none] at hnone
        simpa [rendersLocations, ← Option.ne_none_iff_isSome] using hnone
      simp [hnone, hrenders]
  have hroutes : (g.placedRoutes.filterMap g.routeContextOf).map RouteContext.route =
      g.vsEx.virtualServer.spec.routes.filter rendersLocations := by
    conv_rhs => rw [← map_snd_place pageCount 0 g.vsEx.virtualServer.spec.routes]
    rw [map_filterMap, filter_map, ← filterMap_eq_map', filterMap_filter]
    refine filterMap_congr fun e _ => ?_
    rw [hroute]
    rfl
  have hsubroutes : (g.placedSubroutes.map (g.subrouteContextOf g.inheritance)).map
      RouteContext.route = (subroutesOf g.vsEx.virtualServerRoutes).map Prod.snd := by
    conv_rhs => rw [← map_snd_place (fun e => pageCount e.2)
      (total pageCount g.vsEx.virtualServer.spec.routes)
      (subroutesOf g.vsEx.virtualServerRoutes)]
    rw [map_map, map_map]
    rfl
  rw [contexts, map_append, hroutes, hsubroutes, renderedRoutes]

theorem route_mem_allRoutes (hctx : ctx ∈ g.contexts) :
    ctx.route ∈ allRoutes g.vsEx := by
  have hroute : ctx.route ∈ renderedRoutes g.vsEx := by
    rw [← route_contexts]
    exact mem_map_of_mem hctx
  rcases mem_append.mp hroute with hroute | hroute
  · exact mem_append_left _ (mem_of_mem_filter hroute)
  · exact mem_append_right _ hroute

/-- The error pages of a context are those of some route, under the number of that route. -/
theorem errorPages_of_context (hctx : ctx ∈ g.contexts) : ∃ e ∈ place pageCount 0
    (allRoutes g.vsEx), ctx.errorPages = errorPageDetails e.2 e.1 := by
  have hroutes : ∀ e ∈ g.placedRoutes, e ∈ place pageCount 0 (allRoutes g.vsEx) := by
    intro e he
    rw [allRoutes, place_append]
    exact mem_append_left _ he
  have hsubroutes : ∀ e ∈ g.placedSubroutes,
      (e.1, e.2.2) ∈ place pageCount 0 (allRoutes g.vsEx) := by
    intro e he
    rw [allRoutes, place_append, place_map, Nat.zero_add]
    exact mem_append_right _ (mem_map.mpr ⟨e, he, rfl⟩)
  rcases mem_contexts.mp hctx with ⟨e, he, -, rfl⟩ | ⟨e, he, rfl⟩
  · exact ⟨e, hroutes e he, rfl⟩
  simp only [subrouteContextOf, subrouteContext]
  split
  · cases hd : g.inheritance.errorPages[getResourceKey e.2.1.objectMeta]? with
    | none => exact ⟨(e.1, e.2.2), hsubroutes e he, rfl⟩
    | some d =>
      rw [inheritance_errorPages] at hd
      obtain ⟨e', he', hleft⟩ := exists_of_findSome?_eq_some hd
      refine ⟨e', hroutes e' (mem_reverse.mp he'), ?_⟩
      unfold left at hleft
      split at hleft
      · exact (Option.some.inj hleft).symm
      · cases hleft
  · exact ⟨(e.1, e.2.2), hsubroutes e he, rfl⟩

variable (h : ∀ r ∈ allRoutes g.vsEx, DefinedRoute r)
include h

theorem context_pagesDefined (hctx : ctx ∈ g.contexts) : PagesDefined ctx.errorPages.pages := by
  obtain ⟨e, he, hdetails⟩ := errorPages_of_context hctx
  rw [hdetails]
  exact (h e.2 (mem_of_mem_place he)).pages

/-- A context is rendered exactly if there is something to do by default. -/
theorem isSome_renderRoute_iff
    (hcomplete : CompletePolicies g.vsEx.secretRefs g.vsc.parseURL g.vsEx.policies)
    (hctx : ctx ∈ g.contexts) (st : GeneratorState) :
    (g.renderRoute st ctx).isSome ↔ TargetDefined ctx.route.splits ctx.route.action := by
  have hpolicies : (generatePolicies g.policyOptions g.vsEx.policies st.oidc ctx.policyContext
      ctx.policyRefs).isSome := isSome_generatePolicies hcomplete st.oidc _ _
  obtain ⟨⟨cfg, registered⟩, hcfg⟩ := isSome_iff_exists.mp hpolicies
  have hpages : PagesDefined (g.locationParams ctx
      (g.addContextPolicies ctx.upstreamNamer cfg registered st)).errorPages.pages :=
    context_pagesDefined h hctx
  have hrouting := isSome_generateRouting_iff hpages g.variableNamer
    g.vsc.dynamicWeightChangesReload
    (routingIndex (g.addContextPolicies ctx.upstreamNamer cfg registered st))
    (h ctx.route (route_mem_allRoutes hctx)).toMatchesDefined
  rw [← hrouting, renderRoute, hcfg]
  simp only [Option.bind_eq_bind, Option.bind_some]
  cases generateRouting _ _ _ _ ctx.route <;> simp

omit h

end Generator

/-- Only a subroute with a selector has nothing to do. -/
theorem forall_targetDefined_iff (h : AcceptedSpecs vsEx) :
    (∀ r ∈ renderedRoutes vsEx, TargetDefined r.splits r.action) ↔
      ∀ vsr ∈ vsEx.virtualServerRoutes, ∀ r ∈ vsr.spec.subroutes, r.routeSelector = none := by
  constructor
  · intro hroutes vsr hvsr r hr
    have haccepted := h.subroute vsr hvsr r hr
    have hrendered : r ∈ renderedRoutes vsEx := mem_append_right _
      (mem_map.mpr ⟨(vsr, r), mem_subroutesOf.mpr ⟨hvsr, hr⟩, rfl⟩)
    exact (targetDefined_iff_of_accepted haccepted (haccepted.noRoute rfl)).mp (hroutes r hrendered)
  intro hselectors r hr
  rcases mem_append.mp hr with hr | hr
  · obtain ⟨hr, hrenders⟩ := mem_filter.mp hr
    have hfields : r.route = "" ∧ r.routeSelector = none := by
      simpa [rendersLocations] using hrenders
    exact (targetDefined_iff_of_accepted (h.route r hr) hfields.1).mpr hfields.2
  · obtain ⟨e, he, rfl⟩ := mem_map.mp hr
    obtain ⟨hvsr, hr⟩ := mem_subroutesOf.mp he
    have haccepted := h.subroute e.1 hvsr e.2 hr
    exact (targetDefined_iff_of_accepted haccepted (haccepted.noRoute rfl)).mpr
      (hselectors e.1 hvsr e.2 hr)

structure CompleteInputs (vsc : VirtualServerConfigurator) (vsEx : VirtualServerEx) : Prop where
  tls : ∀ t, vsEx.virtualServer.spec.tls = some t → t.secret ≠ "" →
    (vsEx.secretRefs[vsEx.virtualServer.objectMeta.nspace.val ++ "/" ++ t.secret]?).isSome
  policies : CompletePolicies vsEx.secretRefs vsc.parseURL vsEx.policies

variable {vsc : VirtualServerConfigurator}

theorem isSome_startGenerator
    (hcomplete : CompleteInputs vsc vsEx) : (startGenerator vsc vsEx).isSome := by
  have hssl : (generateSSLConfig vsc vsEx.virtualServer.spec.tls
      vsEx.virtualServer.objectMeta.nspace.val vsEx.secretRefs).isSome := by
    cases htls : vsEx.virtualServer.spec.tls with
    | none => rfl
    | some t =>
      unfold generateSSLConfig
      dsimp only
      split
      · rfl
      · rename_i hsecret
        obtain ⟨ref, href⟩ := isSome_iff_exists.mp (hcomplete.tls t htls hsecret)
        simp [href]
  obtain ⟨ssl, hssl⟩ := isSome_iff_exists.mp hssl
  let g : Generator := { vsc, vsEx, ssl, specHasOIDC := false }
  have hpolicies : (generatePolicies g.policyOptions vsEx.policies {} g.specPolicyContext
      vsEx.virtualServer.spec.policies).isSome := isSome_generatePolicies hcomplete.policies _ _ _
  obtain ⟨⟨cfg, locations⟩, hcfg⟩ := isSome_iff_exists.mp hpolicies
  simp [startGenerator, hssl, g, hcfg]

theorem isSome_generateVirtualServer_iff
    (h : ∀ r ∈ allRoutes vsEx, DefinedRoute r) (hcomplete : CompleteInputs vsc vsEx) :
    (generateVirtualServer vsc vsEx).isSome ↔
      ∀ r ∈ renderedRoutes vsEx, TargetDefined r.splits r.action := by
  obtain ⟨⟨g, start⟩, hstart⟩ := isSome_iff_exists.mp (isSome_startGenerator hcomplete)
  obtain ⟨hvsc, hvsEx, -⟩ := startGenerator_spec hstart
  obtain ⟨pages, hpages⟩ := isSome_iff_exists.mp
    (isSome_pageLocations (fun r hr => (h r hr).pages) 0)
  subst hvsEx hvsc
  have hrun := isSome_foldlM_iff (fun ctx hctx st => Generator.isSome_renderRoute_iff h
    hcomplete.policies hctx st) start
  have hroutes : (∀ r ∈ renderedRoutes g.vsEx, TargetDefined r.splits r.action) ↔
      ∀ ctx ∈ g.contexts, TargetDefined ctx.route.splits ctx.route.action := by
    rw [← Generator.route_contexts, forall_mem_map]
  rw [generateVirtualServer_eq, hstart, hpages, hroutes, ← hrun]
  simp

/-- The generator dereferences no nil pointer exactly if no subroute has a selector. -/
theorem isSome_generateVirtualServerConfig_iff (vsv : VirtualServerValidator)
    (vsc : VirtualServerConfigurator) (vsEx : VirtualServerEx)
    (hvs : vsv.validateVirtualServer vsEx.virtualServer = none)
    (hvsrs : ∀ vsr ∈ vsEx.virtualServerRoutes, vsv.validateVirtualServerRoute vsr = none)
    (hcomplete : CompleteInputs vsc vsEx) :
    (generateVirtualServerConfig vsc vsEx).isSome ↔
      ∀ vsr ∈ vsEx.virtualServerRoutes, ∀ r ∈ vsr.spec.subroutes, r.routeSelector = none := by
  have haccepted : AcceptedSpecs vsEx := ⟨acceptedRoute_of_virtualServer hvs,
    fun vsr hvsr => acceptedRoute_of_virtualServerRoute (hvsrs vsr hvsr)⟩
  rw [generateVirtualServerConfig, Option.isSome_map,
    isSome_generateVirtualServer_iff (fun r hr => haccepted.definedRoute hr) hcomplete]
  exact forall_targetDefined_iff haccepted

theorem completeInputs_of_empty {vs : VirtualServer}
    {vsrs : List VirtualServerRoute} (htls : vs.spec.tls = none) :
    CompleteInputs vsc { virtualServer := vs, virtualServerRoutes := vsrs } where
  tls t ht := by simp [htls] at ht
  policies := {
    refs := {
      secret := fun key ref href => by simp at href
      caFiles := fun key ref secret href => by simp at href }
    policy := fun nspace name pol hpol => by simp at hpol }

theorem isSome_generateVirtualServerConfig_drinks :
    (generateVirtualServerConfig .plain
      { virtualServer := teaAtRoot, virtualServerRoutes := [drinks] }).isSome := by
  refine (isSome_generateVirtualServerConfig_iff plainValidator _ _ (by decide +kernel)
    (by decide +kernel) (completeInputs_of_empty rfl)).mpr ?_
  decide +kernel

/-- The subroute selects VirtualServerRoutes itself. -/
def selectingDrinks : VirtualServerRoute where
  objectMeta := { nspace := .of "default", name := .of "drinks" }
  spec := {
    host := "cafe.example.com"
    subroutes := [{
      path := "/coffee"
      routeSelector := some { matchLabels := (∅ : GoMap String).insert "app" "coffee" } }] }

theorem selecting_subroute_panics :
    plainValidator.validateVirtualServer teaAtRoot = none ∧
      plainValidator.validateVirtualServerRoute selectingDrinks = none ∧
      plainValidator.validateVirtualServerRouteForVirtualServer selectingDrinks
        teaAtRoot.spec.host ["/"] = none ∧
      CompleteInputs .plain
        { virtualServer := teaAtRoot, virtualServerRoutes := [selectingDrinks] } ∧
      (generateVirtualServerConfig .plain
        { virtualServer := teaAtRoot, virtualServerRoutes := [selectingDrinks] }).isNone := by
  refine ⟨by decide +kernel, by decide +kernel, by decide +kernel, completeInputs_of_empty rfl, ?_⟩
  decide +kernel

end IngressController.Configs
