import IngressController.Validation.VirtualServer

/-! # Accepted routes

What the validator guarantees of the routes of an accepted VirtualServer and the subroutes of an
accepted VirtualServerRoute. The generator relies on it.
-/

namespace IngressController.Validation

open GoString FieldErrors VirtualServerValidator List

structure AcceptedAction (a : Action) : Prop where
  single : countActions a = 1
  redirect : ∀ r, a.redirect = some r → containsText r.url "://" = true

structure AcceptedSplits (splits : List Split) : Prop where
  action : ∀ s ∈ splits, ∃ a, s.action = some a ∧ AcceptedAction a
  weight : ∀ s ∈ splits, 0 ≤ s.weight ∧ s.weight ≤ 100
  total : splits ≠ [] → 2 ≤ splits.length ∧ totalWeight splits = 100

structure AcceptedCondition (c : Condition) : Prop where
  single : countSet [c.header ≠ "", c.cookie ≠ "", c.argument ≠ "", c.variableName ≠ ""] = 1
  variableName : c.variableName ≠ "" → c.variableName ∈ validVariableNames

structure AcceptedMatch (m : Match) : Prop where
  conditions : m.conditions ≠ []
  condition : ∀ c ∈ m.conditions, AcceptedCondition c
  single : countSet [m.action.isSome, m.splits ≠ []] = 1
  action : ∀ a, m.action = some a → AcceptedAction a
  splits : AcceptedSplits m.splits

structure AcceptedErrorPage (e : ErrorPage) : Prop where
  single : countSet [e.ret.isSome, e.redirect.isSome] = 1
  redirect : ∀ r, e.redirect = some r → containsText r.url "://" = true

structure AcceptedRoute (route : Route) (isRouteFieldForbidden : Bool) : Prop where
  action : ∀ a, route.action = some a → AcceptedAction a
  splits : AcceptedSplits route.splits
  routeMatch : ∀ m ∈ route.routeMatches, AcceptedMatch m
  errorPage : ∀ e ∈ route.errorPages.getD [], AcceptedErrorPage e
  single : routeFieldCount route isRouteFieldForbidden = 1
  noRoute : isRouteFieldForbidden = true → route.route = ""

variable {vsv : VirtualServerValidator} {fieldPath path nspace : String}
  {upstreamNames : List String}

theorem forall_of_each {α : Type} {check : Nat → α → ErrorList} {P : α → Prop} {l : List α}
    (h : each check l = []) (hcheck : ∀ i a, check i a = [] → P a) : ∀ a ∈ l, P a := by
  intro a ha
  obtain ⟨i, hi⟩ := each_eq_nil_of_forall h ha
  exact hcheck i a hi

theorem containsText_of_accepted {url : String} {validVars : List String}
    (h : vsv.validateRedirectURL url path validVars = []) : containsText url "://" = true := by
  unfold validateRedirectURL at h
  split at h
  · cases h
  · split at h
    · cases h
    · rename_i hcontains
      simpa using hcontains

theorem acceptedAction {a : Action} {internal : Bool}
    (h : vsv.validateAction a fieldPath upstreamNames path internal = []) : AcceptedAction a := by
  unfold validateAction at h
  split at h
  · cases h
  · rename_i hcount
    refine ⟨by simpa using hcount, fun r hr => ?_⟩
    simp only [hr, append_eq_nil_iff, validateActionRedirect] at h
    exact containsText_of_accepted h.1.1.2.1

theorem acceptedAction_of_some {action : Option Action} {internal : Bool}
    (h : vsv.validateSomeAction action fieldPath upstreamNames path internal = []) :
    ∀ a, action = some a → AcceptedAction a := by
  rintro a rfl
  exact acceptedAction h

theorem acceptedSplits {splits : List Split}
    (h : vsv.validateSomeSplits splits fieldPath upstreamNames path = []) :
    AcceptedSplits splits := by
  unfold validateSomeSplits at h
  split at h
  · unfold validateSplits at h
    split at h
    · cases h
    rename_i hlength
    rw [append_eq_nil_iff] at h
    have hsplit : ∀ s ∈ splits, (0 ≤ s.weight ∧ s.weight ≤ 100) ∧
        ∃ a, s.action = some a ∧ AcceptedAction a := by
      refine forall_of_each h.1 fun i s hs => ?_
      rw [validateSplit, append_eq_nil_iff] at hs
      refine ⟨?_, ?_⟩
      · have hrange := hs.1
        unfold isInRange at hrange
        split at hrange
        · assumption
        · cases hrange
      · cases haction : s.action with
        | none => simp [haction] at hs
        | some a =>
          simp only [haction] at hs
          exact ⟨a, rfl, acceptedAction hs.2⟩
    refine ⟨fun s hs => (hsplit s hs).2, fun s hs => (hsplit s hs).1, fun _ => ⟨by omega, ?_⟩⟩
    by_contra hne
    simp [hne] at h
  · rename_i hnil
    rw [not_not] at hnil
    subst hnil
    exact ⟨by simp, by simp, by simp⟩

theorem acceptedCondition {lib : Libraries} {c : Condition}
    (h : validateCondition lib c path = []) : AcceptedCondition c := by
  simp only [validateCondition, append_eq_nil_iff] at h
  obtain ⟨⟨⟨-, hvariable⟩, hcount⟩, -⟩ := h
  refine ⟨?_, fun hne => ?_⟩
  · by_contra hne
    rw [if_pos hne] at hcount
    cases hcount
  rw [if_pos hne, validateVariableName] at hvariable
  split at hvariable
  · cases hvariable
  · split at hvariable
    · assumption
    · cases hvariable

theorem acceptedMatch {m : Match}
    (h : vsv.validateMatch m fieldPath upstreamNames path = []) : AcceptedMatch m := by
  simp only [validateMatch, append_eq_nil_iff] at h
  obtain ⟨⟨⟨hconditions, haction⟩, hsplits⟩, hcount⟩ := h
  have hne : m.conditions ≠ [] := by
    intro hnil
    rw [if_pos hnil] at hconditions
    cases hconditions
  rw [if_neg hne] at hconditions
  refine ⟨hne, forall_of_each hconditions fun i c hc => acceptedCondition hc, ?_,
    acceptedAction_of_some haction, acceptedSplits hsplits⟩
  by_contra hne
  rw [if_pos hne] at hcount
  cases hcount

theorem acceptedErrorPage {e : ErrorPage} (h : vsv.validateErrorPage e path = []) :
    AcceptedErrorPage e := by
  unfold validateErrorPage at h
  split at h
  · cases h
  rename_i hfields
  split at h
  · cases h
  · refine ⟨by simpa [errorPageHasRequiredFields] using hfields, fun r hr => ?_⟩
    simp only [hr, append_eq_nil_iff, validateErrorPageRedirect, validateActionRedirect] at h
    exact containsText_of_accepted h.2.1

variable {isRouteFieldForbidden : Bool}

theorem acceptedRoute {route : Route}
    (h : vsv.validateRoute route fieldPath upstreamNames isRouteFieldForbidden nspace = []) :
    AcceptedRoute route isRouteFieldForbidden := by
  simp only [validateRoute, append_eq_nil_iff] at h
  obtain ⟨⟨⟨⟨⟨⟨⟨⟨⟨-, haction⟩, hsplits⟩, hmatches⟩, -⟩, hpages⟩, hroute⟩, hcount⟩, -⟩, -⟩ := h
  refine ⟨acceptedAction_of_some haction, acceptedSplits hsplits,
    forall_of_each hmatches fun i m hm => acceptedMatch hm,
    forall_of_each hpages fun i e he => acceptedErrorPage he, ?_, fun hforbidden => ?_⟩
  · by_contra hne
    rw [if_pos hne] at hcount
    cases hcount
  · by_contra hne
    rw [if_pos hne, if_pos hforbidden] at hroute
    cases hroute

variable {vs : VirtualServer}

theorem routes_accepted (h : vsv.validateVirtualServer vs = none) :
    ∃ path names, vsv.validateVirtualServerRoutes vs.spec.routes path names
      vs.objectMeta.nspace.val = [] := by
  have hnil := toAggregate_eq_none.mp h
  simp only [validateVirtualServerSpec, append_eq_nil_iff] at hnil
  exact ⟨_, _, hnil.1.1.1.2⟩

theorem distinctRoutes_eq_nil {check : Nat → Route → ErrorList} {routes : List Route} :
    validateDistinctRoutes check routes path = [] ↔
      (∀ i r, routes[i]? = some r → check i r = []) ∧
        (routes.map fun r => normalizePath r.path).Nodup := by
  simp [validateDistinctRoutes, distinctBy_eq_nil]

theorem nodup_routes_of_accepted (h : vsv.validateVirtualServer vs = none) :
    (vs.spec.routes.map fun r => normalizePath r.path).Nodup := by
  obtain ⟨path, names, hroutes⟩ := routes_accepted h
  rw [validateVirtualServerRoutes, append_eq_nil_iff] at hroutes
  exact (distinctRoutes_eq_nil.mp hroutes.1).2

theorem distinct_of_standalone {routes : List Route}
    (h : vsv.validateSubroutesStandalone routes path upstreamNames nspace = []) :
    validateDistinctRoutes (fun i r => vsv.validateRoute r (index path i) upstreamNames true nspace)
      routes path = [] := by
  simp only [validateSubroutesStandalone] at h
  split_ifs at h
  · contradiction
  · exact h

theorem nodup_subroutes_of_accepted {v : VirtualServerRoute}
    (h : vsv.validateVirtualServerRoute v = none) :
    (v.spec.subroutes.map fun r => normalizePath r.path).Nodup := by
  have hnil := toAggregate_eq_none.mp h
  simp only [validateVirtualServerRouteSpec, append_eq_nil_iff] at hnil
  exact (distinctRoutes_eq_nil.mp (distinct_of_standalone hnil.2)).2

def PassesValidateRoute (vsv : VirtualServerValidator) (r : Route) (isRouteFieldForbidden : Bool) :
    Prop :=
  ∃ fieldPath upstreamNames nspace,
    vsv.validateRoute r fieldPath upstreamNames isRouteFieldForbidden nspace = []

theorem PassesValidateRoute.accepted {r : Route}
    (h : PassesValidateRoute vsv r isRouteFieldForbidden) :
    AcceptedRoute r isRouteFieldForbidden := by
  obtain ⟨_, _, _, h⟩ := h
  exact acceptedRoute h

theorem PassesValidateRoute.conditions {r : Route}
    (h : PassesValidateRoute vsv r isRouteFieldForbidden) :
    ∀ m ∈ r.routeMatches, ∀ c ∈ m.conditions, ∃ path, validateCondition vsv.lib c path = [] := by
  obtain ⟨_, _, _, h⟩ := h
  simp only [validateRoute, append_eq_nil_iff] at h
  obtain ⟨⟨⟨⟨⟨⟨⟨-, hmatches⟩, -⟩, -⟩, -⟩, -⟩, -⟩, -⟩ := h
  refine forall_of_each hmatches fun i m hm => ?_
  simp only [validateMatch, append_eq_nil_iff] at hm
  obtain ⟨⟨⟨hconditions, -⟩, -⟩, -⟩ := hm
  intro c hc
  rw [if_neg (ne_nil_of_mem hc)] at hconditions
  obtain ⟨j, hj⟩ := each_eq_nil_of_forall hconditions hc
  exact ⟨_, hj⟩

theorem passes_of_virtualServer (h : vsv.validateVirtualServer vs = none) :
    ∀ r ∈ vs.spec.routes, PassesValidateRoute vsv r false := by
  intro r hr
  obtain ⟨path, names, hroutes⟩ := routes_accepted h
  rw [validateVirtualServerRoutes, append_eq_nil_iff] at hroutes
  obtain ⟨i, hi⟩ := getElem?_of_mem hr
  exact ⟨_, _, _, (distinctRoutes_eq_nil.mp hroutes.1).1 i r hi⟩

theorem acceptedRoute_of_virtualServer
    (h : vsv.validateVirtualServer vs = none) : ∀ r ∈ vs.spec.routes, AcceptedRoute r false :=
  fun r hr => (passes_of_virtualServer h r hr).accepted

/-- However the paths of the VirtualServer are matched, every subroute is validated. -/
theorem passes_of_subroutes {routes : List Route} {vsPaths : List String}
    (h : vsv.validateVirtualServerRouteSubroutes routes path upstreamNames vsPaths nspace = []) :
    ∀ r ∈ routes, PassesValidateRoute vsv r true := by
  intro r hr
  obtain ⟨i, hi⟩ := getElem?_of_mem hr
  unfold validateVirtualServerRouteSubroutes at h
  split at h
  · exact ⟨_, _, _, (distinctRoutes_eq_nil.mp (distinct_of_standalone h)).1 i r hi⟩
  · split at h
    · cases h
    split at h
    · split at h
      · unfold validateSubroutesExact at h
        split at h
        · split at h
          · cases h
          · obtain rfl := mem_singleton.mp hr
            exact ⟨_, _, _, h⟩
        · cases h
      · simp only [validateSubroutesRegex] at h
        split at h
        · contradiction
        · split at h
          · contradiction
          · exact ⟨_, _, _, each_eq_nil.mp h i r hi⟩
    · have hroute := (distinctRoutes_eq_nil.mp h).1 i r hi
      rw [append_eq_nil_iff] at hroute
      exact ⟨_, _, _, hroute.1⟩

theorem passes_of_virtualServerRoute {vsr : VirtualServerRoute}
    (h : vsv.validateVirtualServerRoute vsr = none) :
    ∀ r ∈ vsr.spec.subroutes, PassesValidateRoute vsv r true := by
  have hnil := toAggregate_eq_none.mp h
  simp only [validateVirtualServerRouteSpec, append_eq_nil_iff] at hnil
  exact passes_of_subroutes hnil.2

theorem acceptedRoute_of_virtualServerRoute {vsr : VirtualServerRoute}
    (h : vsv.validateVirtualServerRoute vsr = none) :
    ∀ r ∈ vsr.spec.subroutes, AcceptedRoute r true :=
  fun r hr => (passes_of_virtualServerRoute h r hr).accepted

end IngressController.Validation
