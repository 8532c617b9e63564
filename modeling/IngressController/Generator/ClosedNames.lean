import IngressController.Generator.AuthLocations
import IngressController.Generator.DefinedNames
import IngressController.Generator.MatchRouting
import IngressController.Generator.PageNames

/-! # Closed configurations

Every internal name a configuration refers to is defined exactly once, unless a path of a route or
of a sign-in location is the name of an internal location.
-/

namespace IngressController.Configs

open GoString Version2 Validation Offsets InternalLocation InternalRedirectLocation RoutingParts
open List

/-! ## References and definitions -/

/-- What NGINX reads of a token. -/
def tokenText : List Char → String
  | '"' :: rest => String.ofList (unescape rest.dropLast)
  | cs => String.ofList cs

/-- The path a location is for; a regular expression is for no fixed path. -/
def locationName (path : String) : Option String :=
  match path.toList with
  | '^' :: '~' :: ' ' :: name => some (tokenText name)
  | '~' :: _ => none
  | '=' :: ' ' :: name => some (tokenText name)
  | name => some (tokenText name)

def isInternalMap (m : Map) : Bool := hasPrefix m.variableName "$vs_"

section

variable (cfg : VirtualServerConfig)

def internalResults : List String :=
  (cfg.maps.filter isInternalMap).flatMap fun m => m.parameters.map Parameter.result

def referencedVariables : List String :=
  (internalResults cfg ++ cfg.server.internalRedirectLocations.map destination).filter
    (hasPrefix · "$")

def definedVariables : List String :=
  cfg.splitClients.map SplitClient.variableName ++
    (cfg.maps.map Map.variableName ++ cfg.keyVals.map KeyVal.variableName) ++
    cfg.authJWTClaimSets.map AuthJWTClaimSet.variableName

def referencedLocations : List String :=
  (internalResults cfg ++
    cfg.splitClients.flatMap fun sc => sc.distributions.map Distribution.value).filter
      (hasPrefix · "/")

def definedLocations : List String :=
  (cfg.server.locations.map Location.path ++
    cfg.server.internalRedirectLocations.map path).filterMap locationName

/-- Where the error pages of locations lead, except those for rejected requests, which lead to the
sign-in URL of a policy. -/
def referencedPages : List String :=
  (cfg.server.locations.flatMap fun loc => loc.errorPages.filter fun page =>
    page.responseCode ≠ Generator.errorPageResponseCodeInherit).map Version2.ErrorPage.name

def definedPages : List String :=
  cfg.server.returnLocations.map ReturnLocation.name ++
    cfg.server.errorPageLocations.map ErrorPageLocation.name

def isURL (name : String) : Bool := containsText name "://"

/-- Every internal name is defined exactly once. -/
structure IsClosed : Prop where
  variableNames : ∀ v ∈ referencedVariables cfg, (definedVariables cfg).count v = 1
  locationNames : ∀ l ∈ referencedLocations cfg, (definedLocations cfg).count l = 1
  pageNames : ∀ name ∈ referencedPages cfg, isURL name = false → (definedPages cfg).count name = 1

instance : Decidable (IsClosed cfg) :=
  decidable_of_iff
    ((∀ v ∈ referencedVariables cfg, (definedVariables cfg).count v = 1) ∧
      (∀ l ∈ referencedLocations cfg, (definedLocations cfg).count l = 1) ∧
      ∀ name ∈ referencedPages cfg, isURL name = false → (definedPages cfg).count name = 1)
    ⟨fun h => ⟨h.1, h.2.1, h.2.2⟩, fun h => ⟨h.variableNames, h.locationNames, h.pageNames⟩⟩

end

section

variable {namer : VariableNamer}

theorem isInternal_text (v : InternalVariable) : hasPrefix (v.text namer) "$vs_" = true := by
  rw [hasPrefix, InternalVariable.toList_text, isPrefixOf_iff_prefix]
  exact prefix_append ['$', 'v', 's', '_'] _

theorem not_internal_of_policy {v : String} (h : isPolicyVariable v = true) :
    hasPrefix v "$vs_" = false := by
  obtain ⟨head, hhead, hprefix⟩ := any_eq_true.mp h
  rw [hasPrefix, isPrefixOf_iff_prefix] at hprefix
  obtain ⟨rest, hrest⟩ := hprefix
  rw [hasPrefix, ← hrest]
  simp only [policyHeads, mem_cons, not_mem_nil, or_false] at hhead
  rcases hhead with rfl | rfl | rfl | rfl | rfl <;> rfl

theorem locationName_text {l : InternalLocation} (h : l.number.isSome) :
    locationName l.text = some l.text := by
  have hslash := slash_text h
  cases htext : l.text.toList with
  | nil => simp [hasPrefix, htext] at hslash
  | cons c cs =>
    obtain rfl : '/' = c := by simpa [hasPrefix, htext] using hslash
    have hlist : String.ofList ('/' :: cs) = l.text := by rw [← htext, String.ofList_toList]
    rw [locationName, htext]
    simp [tokenText, hlist]

end

/-! ## Keys of maps -/

/-- A map whose source and variable are variables, none of them of a policy. -/
def IsPlainMap (m : Map) : Prop :=
  ∃ vs : List String, m.source = String.join vs ∧
    ∀ v ∈ m.variableName :: vs, IsVariable v ∧ isPolicyVariable v = false

theorem join_head {vs : List String} (hvs : ∀ v ∈ vs, IsVariable v) {c : Char} {rest : List Char}
    (h : (String.join vs).toList = c :: rest) : c = '$' := by
  cases vs with
  | nil => simp at h
  | cons v vs =>
    obtain ⟨name, hname, -⟩ := hvs v mem_cons_self
    rw [String.join_cons, String.toList_append, hname, cons_append] at h
    exact (cons.inj h).1.symm

/-- A variable within a concatenation of variables begins one of them. -/
theorem exists_variable_of_join {vs : List String} (hvs : ∀ v ∈ vs, IsVariable v)
    {head : List Char} (hhead : '$' ∉ head) {before rest : List Char}
    (h : (String.join vs).toList = before ++ '$' :: (head ++ rest)) :
    ∃ v ∈ vs, '$' :: head <+: v.toList := by
  induction vs generalizing before with
  | nil =>
    have hlength := congrArg length h
    simp at hlength
  | cons v vs ih =>
    have hvs' : ∀ w ∈ vs, IsVariable w := fun w hw => hvs w (mem_cons_of_mem v hw)
    have hlater : ∀ before', (String.join vs).toList = before' ++ '$' :: (head ++ rest) →
        ∃ w ∈ v :: vs, '$' :: head <+: w.toList := by
      intro before' h'
      obtain ⟨w, hw, hprefix⟩ := ih hvs' h'
      exact ⟨w, mem_cons_of_mem v hw, hprefix⟩
    obtain ⟨name, hname, hnot⟩ := hvs v mem_cons_self
    rw [String.join_cons, String.toList_append, hname, cons_append] at h
    cases before with
    | nil =>
      refine ⟨v, mem_cons_self, ?_⟩
      rw [hname, cons_prefix_cons]
      refine ⟨rfl, ?_⟩
      have hrest := (cons.inj h).2
      rcases append_eq_append_iff.mp hrest with ⟨mid, rfl, hmid⟩ | ⟨mid, rfl, -⟩
      · cases mid with
        | nil => simp
        | cons c mid =>
          obtain rfl := join_head hvs' hmid
          exact absurd (mem_append_right _ mem_cons_self) hhead
      · exact prefix_append _ _
    | cons c before =>
      have hrest := (cons.inj h).2
      rcases append_eq_append_iff.mp hrest with ⟨mid, rfl, hmid⟩ | ⟨mid, rfl, hmid⟩
      · exact hlater mid hmid
      · cases mid with
        | nil => exact hlater [] hmid.symm
        | cons d mid =>
          obtain rfl := (cons.inj hmid).1
          exact absurd (mem_append_right _ mem_cons_self) hnot

section

variable {m m' : Map}

theorem IsPlainMap.key_eq_join (h : IsPlainMap m) :
    ∃ vs : List String, m.source ++ m.variableName = String.join (vs ++ [m.variableName]) ∧
      ∀ v ∈ vs ++ [m.variableName], IsVariable v ∧ isPolicyVariable v = false := by
  obtain ⟨vs, hsource, hvs⟩ := h
  refine ⟨vs, ?_, ?_⟩
  · rw [hsource]
    apply String.toList_inj.mp
    simp
  · intro v hv
    exact hvs v (by simpa [or_comm] using hv)

/-- The map of a policy never has the key of a map of splits or matches. -/
theorem key_ne_of_policy (hm : IsPlainMap m) (hm' : isPolicyVariable m'.variableName = true) :
    m'.source ++ m'.variableName ≠ m.source ++ m.variableName := by
  intro hkey
  obtain ⟨vs, hjoin, hvs⟩ := hm.key_eq_join
  obtain ⟨head, hhead, hprefix⟩ := any_eq_true.mp hm'
  obtain ⟨rest, hrest⟩ := isPrefixOf_iff_prefix.mp hprefix
  have hshape : ∃ name, head.toList = '$' :: name ∧ '$' ∉ name := by
    simp only [policyHeads, mem_cons, not_mem_nil, or_false] at hhead
    rcases hhead with rfl | rfl | rfl | rfl | rfl <;> exact ⟨_, rfl, by decide⟩
  obtain ⟨name, hname, hnot⟩ := hshape
  have hlist : (String.join (vs ++ [m.variableName])).toList =
      m'.source.toList ++ '$' :: (name ++ rest) := by
    rw [← hjoin, ← hkey, String.toList_append, ← hrest, hname, cons_append]
  obtain ⟨v, hv, hvprefix⟩ := exists_variable_of_join (fun v hv => (hvs v hv).1) hnot hlist
  have hpolicy := isPolicyVariable_of_toList head hhead (hname ▸ hvprefix)
  rw [(hvs v hv).2] at hpolicy
  cases hpolicy

theorem variableName_eq_of_key (hm : IsPlainMap m) (hm' : IsPlainMap m')
    (hkey : m'.source ++ m'.variableName = m.source ++ m.variableName) :
    m'.variableName = m.variableName := by
  obtain ⟨vs, hjoin, hvs⟩ := hm.key_eq_join
  obtain ⟨vs', hjoin', hvs'⟩ := hm'.key_eq_join
  have heq : vs' ++ [m'.variableName] = vs ++ [m.variableName] := by
    rw [← sourceVariables_join fun v hv => (hvs v hv).1,
      ← sourceVariables_join fun v hv => (hvs' v hv).1, ← hjoin, ← hjoin', hkey]
  exact (append_singleton_inj.mp heq).2

end

/-! ## Maps of routes -/

theorem not_policy_text (namer : VariableNamer) (v : InternalVariable) :
    isPolicyVariable (v.text namer) = false := by
  cases hpolicy : isPolicyVariable (v.text namer) with
  | false => rfl
  | true =>
    have hinternal := not_internal_of_policy hpolicy
    rw [isInternal_text] at hinternal
    cases hinternal

theorem not_policy_source {lib : Libraries} {c : Condition} {path : String}
    (h : validateCondition lib c path = []) :
    isPolicyVariable (getNameForSourceForMatchesRouteMapFromCondition c) = false := by
  have haccepted := acceptedCondition h
  unfold getNameForSourceForMatchesRouteMapFromCondition
  split_ifs with hheader hcookie hargument
  · simp [isPolicyVariable, policyHeads, hasPrefix, isPrefixOf]
  · simp [isPolicyVariable, policyHeads, hasPrefix, isPrefixOf]
  · simp [isPolicyVariable, policyHeads, hasPrefix, isPrefixOf]
  rw [not_not] at hheader hcookie hargument
  have hsingle := haccepted.single
  have hne : c.variableName ≠ "" := by
    intro hempty
    simp [countSet, hheader, hcookie, hargument, hempty] at hsingle
  have hvalid : ∀ v ∈ validVariableNames, isPolicyVariable v = false := by decide +kernel
  exact hvalid c.variableName (haccepted.variableName hne)

variable {e : Nat × Nat × Route}

section

variable {lib : Libraries} {vs : VirtualServer} {dynamicReload : Bool}

theorem plain_text (vs : VirtualServer) (v : InternalVariable) :
    IsVariable (v.text (newVSVariableNamer vs)) ∧
      isPolicyVariable (v.text (newVSVariableNamer vs)) = false :=
  ⟨isVariable_text v (safeNsName_plain vs), not_policy_text _ v⟩

theorem isPlainMap_conditionMap (hlib : HasPlainHeaders lib) {c : Condition} {path : String}
    (h : validateCondition lib c path = []) (index i j amount : Nat) :
    IsPlainMap (conditionMap (newVSVariableNamer vs) index i j amount c) := by
  refine ⟨[getNameForSourceForMatchesRouteMapFromCondition c], by simp [conditionMap], ?_⟩
  rw [forall_mem_cons, forall_mem_singleton]
  exact ⟨plain_text vs (.condition index i j), (isRequestVariable_of_accepted hlib h).isVariable,
    not_policy_source h⟩

theorem isPlainMap_mainMap (index scIndex : Nat) (r : Route) :
    IsPlainMap (mainMap (newVSVariableNamer vs) dynamicReload index scIndex r) := by
  refine ⟨_, rfl, ?_⟩
  rw [forall_mem_cons, forall_mem_map]
  exact ⟨plain_text vs (.matchesMap index), fun e _ => plain_text vs (.condition index e.2 0)⟩

theorem isPlainMap_staticParts {e : Nat × Target} {m : Map}
    (hm : m ∈ (staticParts (newVSVariableNamer vs) dynamicReload e).maps) : IsPlainMap m := by
  unfold staticParts splitParts at hm
  split_ifs at hm
  · cases hm
  · obtain rfl := mem_singleton.mp hm
    refine ⟨[(InternalVariable.keyval e.1).text (newVSVariableNamer vs)], by
      simp [generateSplitsForWeightChangesDynamicReload, InternalVariable.text], ?_⟩
    rw [forall_mem_cons, forall_mem_singleton]
    exact ⟨plain_text vs (.splitClientsMap e.1), plain_text vs (.keyval e.1)⟩
  · cases hm

theorem isPlainMap_routeParts (hlib : HasPlainHeaders lib)
    (hconditions : ∀ m ∈ e.2.2.routeMatches, ∀ c ∈ m.conditions, ∃ path,
      validateCondition lib c path = [])
    {m : Map} (hm : m ∈ (routeParts (newVSVariableNamer vs) dynamicReload e).maps) :
    IsPlainMap m := by
  simp only [routeParts, mem_append] at hm
  rcases hm with hm | hm
  · unfold matchMaps at hm
    split at hm
    · rcases mem_append.mp hm with hm | hm
      · obtain ⟨i, rm, j, c, hrm, hc, rfl⟩ := mem_conditionMaps.mp hm
        obtain ⟨path, hpath⟩ := hconditions rm (mem_of_getElem? hrm) c (mem_of_getElem? hc)
        exact isPlainMap_conditionMap hlib hpath _ _ _ _
      · obtain rfl := mem_singleton.mp hm
        exact isPlainMap_mainMap _ _ _
    · cases hm
  · simp only [join, mem_flatMap, mem_map] at hm
    obtain ⟨p, ⟨t, -, rfl⟩, hm⟩ := hm
    exact isPlainMap_staticParts hm

theorem isInternalMap_routeParts {namer : VariableNamer} {m : Map}
    (hm : m ∈ (routeParts namer dynamicReload e).maps) : isInternalMap m = true := by
  have hdefined : m.variableName ∈ definedBy (routeParts namer dynamicReload e) :=
    mem_append_right _ (mem_append_left _ (mem_map_of_mem hm))
  rw [(definedBy_routeParts namer dynamicReload e).mem_iff, mem_map] at hdefined
  obtain ⟨v, -, hv⟩ := hdefined
  rw [isInternalMap, ← hv]
  exact isInternal_text v

end

/-! ## Where error pages lead -/

/-- The page of a location leads to a sign-in URL, a redirect, a return location or where a page of
its context leads. -/
inductive PageTarget (ctxs : List RouteContext) (returns : Nat) (page : Version2.ErrorPage) :
    Prop where
  | signin (h : page.responseCode = Generator.errorPageResponseCodeInherit)
  | redirect (ctx : RouteContext) (hctx : ctx ∈ ctxs) (a : Action)
      (haction : some a ∈ routeActions ctx.route) (redirect : ActionRedirect)
      (hredirect : a.redirect = some redirect) (hname : page.name = redirect.url)
  | ret (n : Nat) (hn : n < returns) (hname : page.name = returnLocationName n)
  | page (ctx : RouteContext) (hctx : ctx ∈ ctxs) (pages : List Version2.ErrorPage)
      (hpages : generateErrorPages ctx.errorPages.index ctx.errorPages.pages = some pages)
      (hmem : page ∈ pages)

theorem PageTarget.mono {ctxs ctxs' : List RouteContext} {returns returns' : Nat}
    {page : Version2.ErrorPage} (h : PageTarget ctxs returns page)
    (hctxs : ∀ ctx ∈ ctxs, ctx ∈ ctxs') (hle : returns ≤ returns') :
    PageTarget ctxs' returns' page := by
  cases h with
  | signin h => exact .signin h
  | redirect ctx hctx a haction redirect hredirect hname =>
    exact .redirect ctx (hctxs ctx hctx) a haction redirect hredirect hname
  | ret n hn hname => exact .ret n (Nat.lt_of_lt_of_le hn hle) hname
  | page ctx hctx pages hpages hmem => exact .page ctx (hctxs ctx hctx) pages hpages hmem

namespace Generator

variable {g : Generator} {spec : PoliciesCfg} {done : List (RouteContext × PoliciesCfg)}
  {ctx : RouteContext} {cfg : PoliciesCfg} {registered : OidcLocations} {routing : RoutingCfg}
  {st st' : GeneratorState}

def HasPages (done : List (RouteContext × PoliciesCfg)) (st : GeneratorState) : Prop :=
  ∀ group ∈ st.groups, ∀ loc ∈ group.locations, ∀ page ∈ loc.errorPages,
    PageTarget (done.map Prod.fst) (total returnCount (done.map (·.1.route))) page

theorem responseCode_of_signin {page : Version2.ErrorPage} (h : page ∈ g.signinErrorPages cfg) :
    page.responseCode = errorPageResponseCodeInherit := by
  unfold signinErrorPages at h
  split at h
  · obtain rfl := mem_singleton.mp h
    rfl
  · cases h

theorem HasPages.step (hrouting : g.HasRouting spec done st) (h : HasPages done st)
    (hstep : g.RenderStep ctx cfg registered routing st st') :
    HasPages (done ++ [(ctx, cfg)]) st' := by
  have hgenerated := hstep.generated
  rw [hrouting.routingIndex_eq] at hgenerated
  obtain ⟨hlocations, -, -⟩ := generateRouting_spec hgenerated
  obtain ⟨upstreams, crUpstreams, urls, oauth2, hframe⟩ :=
    g.addContextPolicies_frame ctx.upstreamNamer cfg registered st
  have htotal : total returnCount ((done ++ [(ctx, cfg)]).map (·.1.route)) =
      total returnCount (done.map (·.1.route)) + returnCount ctx.route := by
    simp
  intro group hgroup loc hloc page hpage
  rw [htotal]
  rw [hstep.next, hframe] at hgroup
  rcases mem_append.mp hgroup with hgroup | hgroup
  · refine (h group hgroup loc hloc page hpage).mono ?_ (Nat.le_add_right _ _)
    intro ctx' hctx'
    rw [map_append]
    exact mem_append_left _ hctx'
  obtain rfl := mem_singleton.mp hgroup
  obtain ⟨loc', hloc', rfl⟩ := mem_map.mp hloc
  have hctx : ctx ∈ (done ++ [(ctx, cfg)]).map Prod.fst := by simp
  rcases mem_append.mp hpage with hpage | hpage
  · obtain ⟨action, hin, n, hleads, hn⟩ := hlocations.pages loc' hloc' page hpage
    cases hleads with
    | redirect a redirect haction hredirect hname =>
      subst haction
      exact .redirect ctx hctx a hin redirect hredirect hname
    | ret hreturn hname => exact .ret n (hn hreturn).2 hname
    | page pages hpages hmem => exact .page ctx hctx pages hpages hmem
  · exact .signin (responseCode_of_signin hpage)

/-- What a run leaves, by the settings of its contexts. -/
structure Generated (g : Generator) (spec : PoliciesCfg)
    (done : List (RouteContext × PoliciesCfg)) (st : GeneratorState) : Prop where
  routing : g.HasRouting spec done st
  policies : g.HasPolicies spec done st
  pages : HasPages done st

theorem exists_generated {vsc : VirtualServerConfigurator} {vsEx : VirtualServerEx}
    (h : generateVirtualServer vsc vsEx = some (g, st)) :
    ∃ spec cfgs st' pages, g.policiesOf = some (spec, cfgs) ∧
      Generated g spec (g.contexts.zip cfgs) st' ∧
        pageLocations 0 (allRoutes vsEx) = some pages ∧ st = st'.withPages pages g.inheritance := by
  refine generateVirtualServer_invariant (P := Generated g) ?_ ?_ h
  · intro spec registered hspec _
    refine ⟨g.hasRouting_initialState spec registered,
      g.hasPolicies_initialState (hasPolicyHeads_generatePolicies hspec) registered, ?_⟩
    intro group hgroup
    obtain ⟨_, _, _, _, _, hframe⟩ := g.initialState_frame spec registered
    rw [hframe] at hgroup
    cases hgroup
  · intro spec done ctx cfg registered routing st st' hstep hst
    exact ⟨hst.routing.step hstep, hst.policies.step hstep, hst.pages.step hst.routing hstep⟩

def numberedContexts (g : Generator) : List (Nat × Nat × Route) :=
  numberedRoutes g.vsc.dynamicWeightChangesReload (g.contexts.map RouteContext.route)

theorem numbered_zip {cfgs : List PoliciesCfg} (hlength : cfgs.length = g.contexts.length) :
    g.numbered (g.contexts.zip cfgs) = g.numberedContexts := by
  have hfst : (g.contexts.zip cfgs).map Prod.fst = g.contexts :=
    map_fst_zip (Nat.le_of_eq hlength.symm)
  have hroutes : (g.contexts.zip cfgs).map (·.1.route) = g.contexts.map RouteContext.route := by
    conv_rhs => rw [← hfst, map_map]
    rfl
  rw [numbered, hroutes, numberedContexts]

def routeMaps (g : Generator) (done : List (RouteContext × PoliciesCfg)) : List Map :=
  (g.numbered done).flatMap fun e => (g.partsOf e).maps

variable {m : Map}

theorem Generated.map_cases (h : Generated g spec done st)
    (hm : m ∈ st.maps ++ st.clientMaps g.vsc.order) :
    isPolicyVariable m.variableName = true ∨ m ∈ g.routeMaps done := by
  rcases mem_append.mp hm with hm | hm
  · rw [h.routing.maps] at hm
    rcases mem_append.mp hm with hm | hm
    · exact .inl ((h.policies.heads spec mem_cons_self).maps m hm)
    obtain ⟨e, he, hm⟩ := mem_flatMap.mp hm
    obtain ⟨hdone, hnumbered⟩ := of_mem_zip he
    rcases mem_append.mp hm with hm | hm
    · exact .inl ((h.policies.heads e.1.2 (mem_cons_of_mem _ (mem_map_of_mem hdone))).maps m hm)
    · exact .inr (mem_flatMap.mpr ⟨e.2, hnumbered, hm⟩)
  · obtain ⟨k, hk, hm⟩ := mem_filterMap.mp hm
    obtain ⟨clients, -, rfl⟩ := Option.map_eq_some_iff.mp hm
    rw [IterOrder.mem_visit] at hk
    exact .inl (h.policies.clientMap k hk)

theorem Generated.mem_maps (h : Generated g spec done st) (hm : m ∈ g.routeMaps done) :
    m ∈ st.maps := by
  obtain ⟨e, he, hm⟩ := mem_flatMap.mp hm
  have hsnd : (done.zip (g.numbered done)).map Prod.snd = g.numbered done :=
    map_snd_zip (by simp [numbered])
  rw [← hsnd] at he
  obtain ⟨p, hp, rfl⟩ := mem_map.mp he
  rw [h.routing.maps]
  exact mem_append_right _ (mem_flatMap.mpr ⟨p, hp, mem_append_right _ hm⟩)

theorem definedBy_numbered (done : List (RouteContext × PoliciesCfg)) :
    (definedBy (join ((g.numbered done).map g.partsOf))).Perm
      (((g.numbered done).flatMap (routeVariables g.vsc.dynamicWeightChangesReload)).map
        (InternalVariable.text g.variableNamer)) := by
  have hjoin := definedBy_join ((g.numbered done).map g.partsOf)
  rw [flatMap_map] at hjoin
  rw [map_flatMap]
  refine hjoin.trans (List.Perm.flatMap_left _ fun e _ => ?_)
  exact definedBy_routeParts g.variableNamer g.vsc.dynamicWeightChangesReload e

theorem nodup_definedBy_numbered (done : List (RouteContext × PoliciesCfg)) :
    (definedBy (join ((g.numbered done).map g.partsOf))).Nodup := by
  rw [(definedBy_numbered done).nodup_iff]
  exact (nodup_routeVariables g.vsc.dynamicWeightChangesReload _).map
    fun v v' hv => InternalVariable.text_inj hv

theorem nodup_variableName_numbered (done : List (RouteContext × PoliciesCfg)) :
    ((g.routeMaps done).map Map.variableName).Nodup := by
  have hnodup := nodup_definedBy_numbered (g := g) done
  simp only [definedBy, join, flatMap_map] at hnodup
  exact (nodup_append.mp (nodup_append.mp hnodup).2.1).1

variable (h : Generated g spec done st)
include h

variable (hplain : ∀ e ∈ g.numbered done, ∀ m ∈ (g.partsOf e).maps, IsPlainMap m)
include hplain

/-- Removing duplicates keeps all maps of splits and matches. -/
theorem Generated.internalMaps_perm :
    ((g.configOf st).maps.filter isInternalMap).Perm (g.routeMaps done) := by
  have hnames := nodup_variableName_numbered (g := g) done
  have hroute : ∀ m ∈ g.routeMaps done, isInternalMap m = true ∧ IsPlainMap m := by
    intro m hm
    obtain ⟨e, he, hm⟩ := mem_flatMap.mp hm
    exact ⟨isInternalMap_routeParts hm, hplain e he m hm⟩
  have hnodup : ((g.configOf st).maps.filter isInternalMap).Nodup :=
    (List.Nodup.of_map _ (Distinct.nodup_byKey _ _)).filter _
  rw [perm_ext_iff_of_nodup hnodup hnames.of_map]
  intro m
  rw [mem_filter]
  constructor
  · rintro ⟨hm, hinternal⟩
    refine (h.map_cases (Distinct.mem_of_mem_byKey hm)).resolve_left fun hpolicy => ?_
    rw [isInternalMap, not_internal_of_policy hpolicy] at hinternal
    cases hinternal
  · intro hm
    obtain ⟨hinternal, hplainMap⟩ := hroute m hm
    refine ⟨(Distinct.mem_byKey_iff fun m' hm' hkey => ?_).mpr
      (mem_append_left _ (h.mem_maps hm)), hinternal⟩
    rcases h.map_cases hm' with hpolicy | hm'
    · exact absurd hkey (key_ne_of_policy hplainMap hpolicy)
    · exact inj_on_of_nodup_map hnames hm' hm
        (variableName_eq_of_key hplainMap (hroute m' hm').2 hkey)

variable {x : String}

/-- A name of splits or matches is counted among their definitions only. -/
theorem Generated.count_variable (hx : hasPrefix x "$vs_" = true) :
    (definedVariables (g.configOf st)).count x =
      (definedBy (join ((g.numbered done).map g.partsOf))).count x := by
  have hmaps : ((g.configOf st).maps.map Map.variableName).count x =
      ((g.routeMaps done).map Map.variableName).count x := by
    rw [← ((h.internalMaps_perm hplain).map Map.variableName).count_eq]
    have hcount : ∀ maps : List Map, (maps.map Map.variableName).count x =
        ((maps.filter isInternalMap).map Map.variableName).count x := by
      intro maps
      rw [count_eq_countP, count_eq_countP, countP_map, countP_map, countP_filter]
      refine countP_congr fun m _ => ?_
      simp only [Function.comp_apply, beq_iff_eq, Bool.and_eq_true, isInternalMap]
      exact ⟨fun heq => ⟨heq, heq ▸ hx⟩, fun heq => heq.1⟩
    exact hcount _
  have hclaims :
      ((g.configOf st).authJWTClaimSets.map AuthJWTClaimSet.variableName).count x = 0 := by
    rw [count_eq_zero, mem_map]
    rintro ⟨claimSet, hmem, rfl⟩
    have hin := Distinct.mem_of_mem_byKey hmem
    rw [h.policies.claimSets] at hin
    obtain ⟨cfg, hcfg, hin⟩ := mem_flatMap.mp hin
    rw [not_internal_of_policy ((h.policies.heads cfg hcfg).claimSets claimSet hin)] at hx
    cases hx
  rw [definedVariables, count_append, count_append, count_append, hclaims, hmaps,
    definedBy, count_append, count_append, Nat.add_zero]
  simp only [configOf, h.routing.splitClients, h.routing.keyVals, join, flatMap_map, routeMaps]

theorem Generated.mem_internalResults :
    x ∈ internalResults (g.configOf st) ↔ ∃ e ∈ g.numbered done, x ∈ resultsOf (g.partsOf e) := by
  unfold internalResults resultsOf
  rw [((h.internalMaps_perm hplain).flatMap_right _).mem_iff, routeMaps, flatMap_assoc, mem_flatMap]

theorem Generated.variableNames :
    ∀ x ∈ referencedVariables (g.configOf st), (definedVariables (g.configOf st)).count x = 1 := by
  intro x hx
  obtain ⟨hx, hdollar⟩ := mem_filter.mp hx
  have hv : ∃ e ∈ g.numbered done,
      ∃ v ∈ routeVariables g.vsc.dynamicWeightChangesReload e, x = v.text g.variableNamer := by
    rcases mem_append.mp hx with hx | hx
    · obtain ⟨e, he, hx⟩ := (h.mem_internalResults hplain).mp hx
      obtain ⟨v, hv, heq⟩ := variable_of_result hx hdollar
      exact ⟨e, he, v, hv, heq⟩
    obtain ⟨redirect, hredirect, rfl⟩ := mem_map.mp hx
    have hin : redirect ∈ st.internalRedirectLocations := hredirect
    rw [h.routing.redirects] at hin
    obtain ⟨e, he, hin⟩ := mem_flatMap.mp hin
    obtain ⟨v, hv, heq⟩ := variable_of_redirect (Option.mem_toList.mp hin)
    exact ⟨e, he, v, hv, heq⟩
  obtain ⟨e, he, v, hv, rfl⟩ := hv
  rw [h.count_variable hplain (isInternal_text v)]
  refine count_eq_one_of_mem (nodup_definedBy_numbered done) ?_
  rw [(definedBy_numbered done).mem_iff]
  exact mem_map_of_mem (mem_flatMap.mpr ⟨e, he, hv⟩)

omit hplain

omit h in
theorem addHSTSToLocation_frame (hsts : Option Version2.HSTS) (loc : Location) :
    (addHSTSToLocation hsts loc).path = loc.path ∧
      (addHSTSToLocation hsts loc).errorPages = loc.errorPages := by
  unfold addHSTSToLocation
  split <;> exact ⟨rfl, rfl⟩

theorem Generated.serverPaths_perm : ((g.configOf st).server.locations.map Location.path).Perm
      ((g.authStateOf (spec :: done.map Prod.snd)).paths ++
        (g.numbered done).flatMap (routePaths g.vsc.dynamicWeightChangesReload)) := by
  have hperm := flatMap_append_perm st.groups LocationGroup.authLocations LocationGroup.locations
  have hpaths : (g.configOf st).server.locations.map Location.path =
      st.specAuthLocations.map Location.path ++
        (st.groups.flatMap fun group => group.authLocations ++ group.locations).map
          Location.path := by
    simp only [configOf, serverOf, GeneratorState.locations, map_map, Function.comp_def,
      addHSTSToLocation_frame]
    exact map_append
  have hmapped := hperm.symm.map Location.path
  rw [map_append] at hmapped
  rw [hpaths, ← h.policies.paths, ← h.routing.paths, append_assoc]
  exact hmapped.append_left _

def internalLocations (g : Generator) (done : List (RouteContext × PoliciesCfg)) :
    List InternalLocation :=
  (g.numbered done).flatMap (routeLocations g.vsc.dynamicWeightChangesReload)

/-- The locations of the configuration: those of authentications, those of the paths of routes and
the internal ones. -/
theorem Generated.definedLocations_perm : (definedLocations (g.configOf st)).Perm
      ((g.authStateOf (spec :: done.map Prod.snd)).paths.filterMap locationName ++
        (((g.numbered done).map fun e => generatePath e.2.2.path).filterMap locationName ++
          (g.internalLocations done).map text)) := by
  have hredirects : (g.configOf st).server.internalRedirectLocations.map path =
      (g.numbered done).flatMap fun e => (g.redirectsOf e).map path := by
    have heq : (g.configOf st).server.internalRedirectLocations =
        (g.numbered done).flatMap g.redirectsOf := h.routing.redirects
    rw [heq, map_flatMap]
  have hinternal : ((g.internalLocations done).map text).filterMap locationName =
      (g.internalLocations done).map text := by
    rw [filterMap_map, ← filterMap_eq_map]
    refine filterMap_congr fun l hl => ?_
    obtain ⟨e, -, hl⟩ := mem_flatMap.mp hl
    obtain ⟨p, hp, hl⟩ := mem_flatMap.mp hl
    exact locationName_text (number_of_mem_targetLocations hp hl)
  unfold definedLocations
  rw [hredirects, ← hinternal, ← filterMap_append, ← filterMap_append]
  refine List.Perm.filterMap _ ?_
  refine (h.serverPaths_perm.append_right _).trans ?_
  rw [append_assoc]
  exact (routePaths_flatMap_perm g.variableNamer g.vsc.dynamicWeightChangesReload _).append_left _

/-- A location that is referred to is defined once exactly if no other location has its name. -/
theorem Generated.count_location {l : InternalLocation} (he : e ∈ g.numbered done)
    (hl : l ∈ routeReferences g.vsc.dynamicWeightChangesReload e) :
    (definedLocations (g.configOf st)).count l.text = 1 ↔
      (∀ path ∈ (g.authStateOf (spec :: done.map Prod.snd)).paths,
        locationName path ≠ some l.text) ∧
      ∀ e' ∈ g.numbered done, locationName (generatePath e'.2.2.path) ≠ some l.text := by
  have hone : ((g.internalLocations done).map text).count l.text = 1 := by
    refine count_eq_one_of_mem ?_ (mem_map_of_mem ?_)
    · exact (nodup_routeLocations g.vsc.dynamicWeightChangesReload _).map fun l l' hl => text_inj hl
    · obtain ⟨p, hp, hl⟩ := mem_flatMap.mp hl
      exact mem_flatMap.mpr ⟨e, he, mem_flatMap.mpr ⟨p, hp, targetReferences_subset hl⟩⟩
  have hzero : ∀ paths : List String, (paths.filterMap locationName).count l.text = 0 ↔
      ∀ path ∈ paths, locationName path ≠ some l.text := by
    intro paths
    rw [count_eq_zero, mem_filterMap]
    simp
  have hroutes : (((g.numbered done).map fun e => generatePath e.2.2.path).filterMap
      locationName).count l.text = 0 ↔
      ∀ e' ∈ g.numbered done, locationName (generatePath e'.2.2.path) ≠ some l.text := by
    rw [hzero, forall_mem_map]
  rw [h.definedLocations_perm.count_eq, count_append, count_append, hone, ← hzero, ← hroutes]
  omega

theorem Generated.mem_referencedLocations
    (hplain : ∀ e ∈ g.numbered done, ∀ m ∈ (g.partsOf e).maps, IsPlainMap m) :
    x ∈ referencedLocations (g.configOf st) ↔ ∃ e ∈ g.numbered done,
      ∃ l ∈ routeReferences g.vsc.dynamicWeightChangesReload e, x = l.text := by
  have hvalues : (g.configOf st).splitClients.flatMap
        (fun sc => sc.distributions.map Distribution.value) =
      (g.numbered done).flatMap fun e => valuesOf (g.partsOf e) := by
    have heq : (g.configOf st).splitClients = _ := h.routing.splitClients
    rw [heq, flatMap_assoc]
    rfl
  rw [referencedLocations, mem_filter, mem_append, h.mem_internalResults hplain, hvalues,
    mem_flatMap]
  constructor
  · rintro ⟨⟨e, he, hx⟩ | ⟨e, he, hx⟩, hslash⟩
    · exact ⟨e, he, mem_routeReferences_iff.mp ⟨.inl hx, hslash⟩⟩
    · exact ⟨e, he, mem_routeReferences_iff.mp ⟨.inr hx, hslash⟩⟩
  · rintro ⟨e, he, hl⟩
    obtain ⟨hx | hx, hslash⟩ : (_ ∈ resultsOf (g.partsOf e) ∨ _) ∧ _ :=
      mem_routeReferences_iff.mpr hl
    · exact ⟨.inl ⟨e, he, hx⟩, hslash⟩
    · exact ⟨.inr ⟨e, he, hx⟩, hslash⟩

omit h

theorem acceptedAction_of_mem {r : Route} {isRouteFieldForbidden : Bool}
    (h : AcceptedRoute r isRouteFieldForbidden) {a : Action} (ha : some a ∈ routeActions r) :
    AcceptedAction a := by
  have htarget : ∀ t : Target, AcceptedSplits t.splits →
      (∀ b, t.action = some b → AcceptedAction b) → some a ∈ t.actions → AcceptedAction a := by
    intro t hsplits haction hmem
    unfold Target.actions at hmem
    split at hmem
    · exact haction a (mem_singleton.mp hmem).symm
    · obtain ⟨s, hs, heq⟩ := mem_map.mp hmem
      obtain ⟨b, hb, hb'⟩ := hsplits.action s hs
      obtain rfl : b = a := Option.some.inj (hb.symm.trans heq)
      exact hb'
  obtain ⟨t, ht, hmem⟩ := mem_flatMap.mp ha
  rcases mem_append.mp ht with ht | ht
  · obtain ⟨⟨m, i⟩, hm, rfl⟩ := mem_map.mp ht
    have hmatch := h.routeMatch m (fst_mem_of_mem_zipIdx hm)
    exact htarget _ hmatch.splits hmatch.action hmem
  · obtain rfl := mem_singleton.mp ht
    exact htarget _ h.splits h.action hmem

theorem Generated.pageTarget (h : Generated g spec done st) {name : String}
    (hname : name ∈ referencedPages (g.configOf st)) :
    ∃ page : Version2.ErrorPage, page.name = name ∧
      page.responseCode ≠ errorPageResponseCodeInherit ∧
      PageTarget (done.map Prod.fst) (total returnCount (done.map (·.1.route))) page := by
  obtain ⟨page, hpage, rfl⟩ := mem_map.mp hname
  obtain ⟨loc, hloc, hpage⟩ := mem_flatMap.mp hpage
  obtain ⟨hpage, hcode⟩ := mem_filter.mp hpage
  obtain ⟨loc, hmem, rfl⟩ := mem_map.mp hloc
  rw [(addHSTSToLocation_frame _ loc).2] at hpage
  refine ⟨page, rfl, by simpa using hcode, ?_⟩
  have hauth : loc ∈ st.specAuthLocations ++ st.groups.flatMap LocationGroup.authLocations →
      PageTarget (done.map Prod.fst) (total returnCount (done.map (·.1.route))) page := by
    intro hmem
    rw [h.policies.errorPages loc hmem] at hpage
    cases hpage
  rcases mem_append.mp hmem with hmem | hmem
  · exact hauth (mem_append_left _ hmem)
  · obtain ⟨group, hgroup, hloc⟩ := mem_flatMap.mp hmem
    rcases mem_append.mp hloc with hloc | hloc
    · exact hauth (mem_append_right _ (mem_flatMap.mpr ⟨group, hgroup, hloc⟩))
    · exact h.pages group hgroup loc hloc page hpage

theorem Generated.pageNames (h : Generated g spec done st) (haccepted : AcceptedSpecs g.vsEx)
    (hdone : done.map Prod.fst = g.contexts) {pages : List ErrorPageLocation}
    (hpages : pageLocations 0 (allRoutes g.vsEx) = some pages) (inherited : Inherited)
    {name : String} (hname : name ∈ referencedPages (g.configOf (st.withPages pages inherited)))
    (hurl : isURL name = false) :
    (definedPages (g.configOf (st.withPages pages inherited))).count name = 1 := by
  set names := (range (total returnCount (done.map (·.1.route)))).map ret ++
    (place pageCount 0 (allRoutes g.vsEx)).flatMap Configs.pageNames with hnames
  have hdefined : definedPages (g.configOf (st.withPages pages inherited)) = names.map text := by
    have hreturns := h.routing.returns
    rw [hnames, map_append, map_map, ← name_pageLocations hpages]
    exact congrArg (· ++ pages.map ErrorPageLocation.name) hreturns
  have hnodup : names.Nodup := by
    rw [hnames, nodup_append]
    refine ⟨nodup_range.map fun i j hij => ?_, nodup_pageNames _, ?_⟩
    · cases hij
      rfl
    intro l hl l' hl' heq
    subst heq
    obtain ⟨n, -, rfl⟩ := mem_map.mp hl
    obtain ⟨e, -, hl'⟩ := mem_flatMap.mp hl'
    obtain ⟨p, -, heq⟩ := mem_map.mp hl'
    cases heq
  have hcount : ∀ l ∈ names,
      (definedPages (g.configOf (st.withPages pages inherited))).count l.text = 1 := by
    intro l hl
    rw [hdefined]
    exact count_eq_one_of_mem (hnodup.map fun l l' hl => text_inj hl) (mem_map_of_mem hl)
  obtain ⟨page, rfl, hcode, htarget⟩ := h.pageTarget hname
  cases htarget with
  | signin hsignin => exact absurd hsignin hcode
  | redirect ctx hctx a haction redirect hredirect hpage =>
    rw [hdone] at hctx
    obtain ⟨_, hroute⟩ := haccepted.accepted (route_mem_allRoutes hctx)
    have hcontains := (acceptedAction_of_mem hroute haction).redirect redirect hredirect
    rw [hpage, isURL, hcontains] at hurl
    cases hurl
  | ret n hn hpage =>
    rw [hpage]
    refine hcount (.ret n) (mem_append_left _ ?_)
    exact mem_map_of_mem (mem_range.mpr hn)
  | page ctx hctx generated hgenerated hmem =>
    rw [hdone] at hctx
    obtain ⟨e, he, hdetails⟩ := errorPages_of_context hctx
    rw [hdetails] at hgenerated
    rcases name_of_mem_generateErrorPages hgenerated hmem with
      ⟨p, hp, redirect, hredirect, hpage⟩ | ⟨l, hl, hpage⟩
    · obtain ⟨_, hroute⟩ := haccepted.accepted (mem_of_mem_place he)
      have hcontains := (hroute.errorPage p hp).redirect redirect hredirect
      rw [hpage, isURL, hcontains] at hurl
      cases hurl
    · rw [hpage]
      exact hcount l (mem_append_right _ (mem_flatMap.mpr ⟨e, he, hl⟩))

/-- No path of a rendered route and no location of an authentication has the name of an internal
location that is referred to. -/
def HasFreeNames (g : Generator) : Prop :=
  ∀ spec cfgs, g.policiesOf = some (spec, cfgs) → ∀ e ∈ g.numberedContexts,
    ∀ l ∈ routeReferences g.vsc.dynamicWeightChangesReload e,
      (∀ path ∈ (g.authStateOf (spec :: cfgs)).paths, locationName path ≠ some l.text) ∧
        ∀ ctx ∈ g.contexts, locationName (generatePath ctx.route.path) ≠ some l.text

theorem mem_contexts_iff_numbered {p : String → Prop} :
    (∀ e ∈ g.numberedContexts, p (generatePath e.2.2.path)) ↔
      ∀ ctx ∈ g.contexts, p (generatePath ctx.route.path) := by
  have hmap : g.numberedContexts.map (·.2.2) = g.contexts.map RouteContext.route :=
    route_numberedRoutes _ _
  have hroutes : (∀ r ∈ g.numberedContexts.map (·.2.2), p (generatePath r.path)) ↔
      ∀ r ∈ g.contexts.map RouteContext.route, p (generatePath r.path) := by rw [hmap]
  rw [forall_mem_map, forall_mem_map] at hroutes
  exact hroutes

theorem Generated.locationNames_iff {cfgs : List PoliciesCfg}
    (h : Generated g spec (g.contexts.zip cfgs) st) (hpolicies : g.policiesOf = some (spec, cfgs))
    (hplain : ∀ e ∈ g.numberedContexts, ∀ m ∈ (g.partsOf e).maps, IsPlainMap m) :
    (∀ l ∈ referencedLocations (g.configOf st), (definedLocations (g.configOf st)).count l = 1) ↔
      g.HasFreeNames := by
  have hlength := length_policiesOf hpolicies
  have hnumbered := numbered_zip hlength
  have hsnd : (g.contexts.zip cfgs).map Prod.snd = cfgs :=
    map_snd_zip (Nat.le_of_eq hlength)
  have hcount : ∀ e ∈ g.numberedContexts, ∀ l ∈ routeReferences g.vsc.dynamicWeightChangesReload e,
      (definedLocations (g.configOf st)).count l.text = 1 ↔
        (∀ path ∈ (g.authStateOf (spec :: cfgs)).paths, locationName path ≠ some l.text) ∧
          ∀ ctx ∈ g.contexts, locationName (generatePath ctx.route.path) ≠ some l.text := by
    intro e he l hl
    rw [← hnumbered] at he
    rw [h.count_location he hl, hsnd, hnumbered,
      mem_contexts_iff_numbered (p := fun path => locationName path ≠ some l.text)]
  rw [← hnumbered] at hplain
  constructor
  · intro hlocations spec' cfgs' hpolicies' e he l hl
    rw [hpolicies, Option.some.injEq, Prod.mk.injEq] at hpolicies'
    obtain ⟨rfl, rfl⟩ := hpolicies'
    rw [← hcount e he l hl]
    refine hlocations l.text ((h.mem_referencedLocations hplain).mpr ⟨e, ?_, l, hl, rfl⟩)
    rwa [hnumbered]
  · intro hfree x hx
    obtain ⟨e, he, l, hl, rfl⟩ := (h.mem_referencedLocations hplain).mp hx
    rw [hnumbered] at he
    exact (hcount e he l hl).mpr (hfree spec cfgs hpolicies e he l hl)

theorem isPlainMap_partsOf {vsv : VirtualServerValidator} (hlib : HasPlainHeaders vsv.lib)
    (hvs : vsv.validateVirtualServer g.vsEx.virtualServer = none)
    (hvsrs : ∀ vsr ∈ g.vsEx.virtualServerRoutes, vsv.validateVirtualServerRoute vsr = none) :
    ∀ e ∈ g.numberedContexts, ∀ m ∈ (g.partsOf e).maps, IsPlainMap m := by
  intro e he m hm
  have hroute : e.2.2 ∈ g.contexts.map RouteContext.route := by
    rw [← route_numberedRoutes g.vsc.dynamicWeightChangesReload (g.contexts.map _)]
    exact mem_map_of_mem he
  obtain ⟨ctx, hctx, hctxRoute⟩ := mem_map.mp hroute
  have hall := route_mem_allRoutes hctx
  rw [hctxRoute] at hall
  obtain ⟨_, hpasses⟩ : ∃ isRouteFieldForbidden,
      PassesValidateRoute vsv e.2.2 isRouteFieldForbidden := by
    rcases mem_append.mp hall with hr | hr
    · exact ⟨false, passes_of_virtualServer hvs _ hr⟩
    · obtain ⟨e', he', heq⟩ := mem_map.mp hr
      obtain ⟨hvsr, hr⟩ := mem_subroutesOf.mp he'
      exact ⟨true, heq ▸ passes_of_virtualServerRoute (hvsrs e'.1 hvsr) e'.2 hr⟩
  exact isPlainMap_routeParts hlib hpasses.conditions hm

end Generator

/-- The route `/tea` splits its requests, the others pass theirs. -/
def splitTea (otherPaths : List String) : VirtualServer where
  objectMeta := { nspace := .of "default", name := .of "cafe" }
  spec := {
    host := "cafe.example.com"
    upstreams := [
      { name := "tea", service := "tea-svc", port := 80 },
      { name := "coffee", service := "coffee-svc", port := 80 }]
    routes :=
      { path := "/tea"
        splits := [
          { weight := 90, action := some { pass := "tea" } },
          { weight := 10, action := some { pass := "coffee" } }] } ::
      otherPaths.map fun path => { path := path, action := some { pass := "coffee" } } }

/-- Splits, and a VirtualServerRoute with matches and an error page. -/
def splitTeaWithVersions : VirtualServerEx where
  virtualServer := { splitTea [] with spec.routes :=
    (splitTea ["/coffee"]).spec.routes ++ [{ path := "/version", route := "versions" }] }
  virtualServerRoutes := [{
    objectMeta := { nspace := .of "default", name := .of "versions" }
    spec := {
      host := "cafe.example.com"
      upstreams := [
        { name := "stable", service := "stable-svc", port := 80 },
        { name := "beta", service := "beta-svc", port := 80 }]
      subroutes := [{ versions with
        errorPages := some [{ codes := [502], ret := some { body := "later" } }] }] } }]

end IngressController.Configs
