import IngressController.Library.Arbitration
import IngressController.Configuration.Hosts

/-! # Who holds a host

The three loops that build the host table are one arbitration over the claims of
all resources, so the library says who holds a host and who is told about losing
it. Warnings about routes never read like a lost host.
-/

namespace IngressController

open Arbitration Resource ConfigurationObject List

namespace ConfigurationObject

def objectMeta : ConfigurationObject → ObjectMeta
  | ingress ing => ing.objectMeta
  | virtualServer vs => vs.objectMeta
  | virtualServerRoute vsr => vsr.objectMeta
  | transportServer ts => ts.objectMeta

def kind : ConfigurationObject → String
  | ingress _ => ingressKind
  | virtualServer _ => virtualServerKind
  | virtualServerRoute _ => virtualServerRouteKind
  | transportServer _ => transportServerKind

def keyWithKind (x : ConfigurationObject) : String :=
  getResourceKeyWithKind x.kind x.objectMeta

end ConfigurationObject

namespace Resource

def object : Resource → ConfigurationObject
  | ingress ic => .ingress ic.ingress
  | virtualServer vsc => .virtualServer vsc.virtualServer
  | transportServer tsc => .transportServer tsc.transportServer

def bare : Resource → Resource
  | ingress ic => ingress { ic with warnings := [] }
  | virtualServer vsc => virtualServer { vsc with warnings := [] }
  | transportServer tsc => transportServer { tsc with warnings := [] }

@[simp] theorem bare_addWarning (w : String) (r : Resource) : (r.addWarning w).bare = r.bare := by
  cases r <;> rfl

variable (r : Resource)

@[simp] theorem object_bare : r.bare.object = r.object := by
  cases r <;> rfl

@[simp] theorem getObjectMeta_bare : r.bare.getObjectMeta = r.getObjectMeta := by
  cases r <;> rfl

@[simp] theorem getKeyWithKind_bare : r.bare.getKeyWithKind = r.getKeyWithKind := by
  cases r <;> rfl

@[simp] theorem objectMeta_object : r.object.objectMeta = r.getObjectMeta := by
  cases r <;> rfl

theorem getKeyWithKind_eq : r.getKeyWithKind = r.object.keyWithKind := by
  rw [keyWithKind, getResourceKeyWithKind_eq]
  cases r <;> rfl

def age (r : Resource) : ℤ ×ₗ Stringᵒᵈ := r.getObjectMeta.age

theorem wins_eq (r' : Resource) : r.wins r' = decide (r.age < r'.age) := by
  rw [Bool.eq_iff_iff, decide_eq_true_iff]
  exact chooseObjectMetaWinner_iff

end Resource

namespace Configuration

open HostBuild

/-! ## The contest for hosts -/

theorem hostTaken_inj {h h' : String} : hostTaken h = hostTaken h' ↔ h = h' := by
  refine ⟨fun heq => ?_, fun heq => heq ▸ rfl⟩
  have hlist := congrArg String.toList heq
  simp only [hostTaken, String.toList_append, append_assoc, append_cancel_left_eq,
    append_cancel_right_eq] at hlist
  exact String.toList_inj.mp hlist

/-- Resources contend for hosts and are warned about the ones they lose. -/
def hostContest : Contest String Resource (ℤ ×ₗ Stringᵒᵈ) Resource String where
  name := getKeyWithKind
  rank := age
  core := bare
  note := hostTaken
  notes := warnings
  lose h := addWarning (hostTaken h)
  name_core {a b} h := by
    rw [← getKeyWithKind_bare a, h, getKeyWithKind_bare]
  rank_core {a b} h := by
    unfold age
    rw [← getObjectMeta_bare a, h, getObjectMeta_bare]
  core_lose h r := bare_addWarning _ r
  notes_lose h r := warnings_addWarning r _

/-- What a resource is apart from its warnings determines its name. -/
theorem name_of_bare {r r' : Resource} (h : r.bare = r'.bare) :
    r.getKeyWithKind = r'.getKeyWithKind := hostContest.name_core h

theorem object_of_bare {r r' : Resource} (h : r.bare = r'.bare) : r.object = r'.object := by
  rw [← object_bare r, h, object_bare]

def HostBuild.contest (b : HostBuild) : State String Resource :=
  ⟨b.hosts, b.resources⟩

variable (r : Resource)

theorem HostBuild.contest_claimHost (b : HostBuild) (host : String) :
    (b.claimHost r host).contest = claim hostContest r b.contest host := by
  unfold claimHost claim contest
  cases b.hosts[host]? with
  | none => rfl
  | some holder =>
    cases hr : b.resources[holder]? with
    | none => simp [hr, warn, hostContest]
    | some r' =>
      simp only [hr, wins_eq]
      by_cases hwins : r'.age < r.age <;> simp [hwins, warn, hostContest]

theorem HostBuild.contest_addResource (claimed : List String) (b : HostBuild) :
    (b.addResource r claimed).contest = enter hostContest b.contest (r, claimed) := by
  unfold addResource enter
  exact (foldl_hom contest (fun b h => (contest_claimHost r b h).symm)).symm

theorem HostBuild.challengesVSR_claimHost (b : HostBuild) (h : String) :
    (b.claimHost r h).challengesVSR = b.challengesVSR := by
  unfold claimHost
  cases b.hosts[h]? with
  | none => rfl
  | some holder => exact (apply_ite challengesVSR ..).trans (ite_self _)

theorem HostBuild.challengesVSR_addResource (claimed : List String) (b : HostBuild) :
    (b.addResource r claimed).challengesVSR = b.challengesVSR := by
  unfold addResource
  induction claimed using reverseRecOn with
  | nil => rfl
  | append_singleton claimed h ih =>
    rw [foldl_append, foldl_cons, foldl_nil, challengesVSR_claimHost, ih]

section Claims

variable (env : Env) (c : Configuration) (ord : Order)

/-- The claim of an Ingress that is neither a minion nor converted to a route. -/
def ingressClaim (ing : Ingress) : Option (Resource × List String) :=
  if isMinion ing then none
  else
    match challengeVSR env c ing with
    | some _ => none
    | none => some (ingressResource c ing, ing.spec.rules.map IngressRule.host)

def challenges : List VirtualServerRoute :=
  c.ingresses.sorted.filterMap fun ing => if isMinion ing then none else challengeVSR env c ing

def virtualServerClaim (vs : VirtualServer) : Resource × List String :=
  (virtualServerResource env c ord (challenges env c) vs, [vs.spec.host])

def transportServerClaim (ts : TransportServer) : Option (Resource × List String) :=
  if env.isTLSPassthroughEnabled && isTLSPassthrough ts then
    some (.transportServer { transportServer := ts }, [ts.spec.host])
  else none

def hostClaims : List (Resource × List String) :=
  c.ingresses.sorted.filterMap (ingressClaim env c) ++
    c.virtualServers.sorted.map (virtualServerClaim env c ord) ++
    c.transportServers.sorted.filterMap (transportServerClaim env)

theorem HostBuild.contest_addIngresses (ings : List Ingress) (b : HostBuild) :
    (ings.foldl (addIngress env c) b).contest =
        (ings.filterMap (ingressClaim env c)).foldl (enter hostContest) b.contest ∧
      (ings.foldl (addIngress env c) b).challengesVSR = b.challengesVSR ++ ings.filterMap fun ing =>
          if isMinion ing then none else challengeVSR env c ing := by
  induction ings generalizing b with
  | nil => simp
  | cons ing ings ih =>
    rw [foldl_cons]
    obtain ⟨hcontest, hvsrs⟩ := ih (b.addIngress env c ing)
    rw [hcontest, hvsrs]
    by_cases hm : isMinion ing = true
    · simp [addIngress, ingressClaim, hm]
    cases hv : challengeVSR env c ing with
    | some vsr => simp [addIngress, ingressClaim, hm, hv, contest]
    | none =>
      have hkept : (b.addResource (ingressResource c ing)
          (ing.spec.rules.map IngressRule.host)).challengesVSR = b.challengesVSR :=
        challengesVSR_addResource ..
      simp [addIngress, ingressClaim, hm, hv, contest_addResource, hkept]

theorem HostBuild.contest_addVirtualServers (vss : List VirtualServer) (b : HostBuild)
    (hb : b.challengesVSR = challenges env c) :
    (vss.foldl (addVirtualServer env c ord) b).contest =
      (vss.map (virtualServerClaim env c ord)).foldl (enter hostContest) b.contest := by
  induction vss generalizing b with
  | nil => rfl
  | cons vs vss ih =>
    rw [foldl_cons, map_cons, foldl_cons, ih]
    · rw [addVirtualServer, contest_addResource, hb, virtualServerClaim]
    · rw [addVirtualServer, challengesVSR_addResource, hb]

theorem HostBuild.contest_addTransportServers (tss : List TransportServer) (b : HostBuild)
    (henabled : env.isTLSPassthroughEnabled = true) :
    (tss.foldl addTransportServer b).contest =
      (tss.filterMap (transportServerClaim env)).foldl (enter hostContest) b.contest := by
  induction tss generalizing b with
  | nil => rfl
  | cons ts tss ih =>
    rw [foldl_cons, ih]
    by_cases hp : isTLSPassthrough ts = true
    · simp [addTransportServer, transportServerClaim, henabled, hp, contest_addResource]
    · simp [addTransportServer, transportServerClaim, hp]

theorem contest_buildHostsAndResources :
    (buildHostsAndResources env c ord).contest = run hostContest (hostClaims env c ord) := by
  obtain ⟨hcontest, hvsrs⟩ := contest_addIngresses env c c.ingresses.sorted ({} : HostBuild)
  have hvss := contest_addVirtualServers env c ord c.virtualServers.sorted _
    (hvsrs.trans (nil_append _))
  unfold buildHostsAndResources run hostClaims
  rw [foldl_append, foldl_append]
  by_cases henabled : env.isTLSPassthroughEnabled = true
  · rw [if_pos henabled, contest_addTransportServers env _ _ henabled, hvss, hcontest]
    rfl
  have hnone : c.transportServers.sorted.filterMap (transportServerClaim env) = [] := by
    rw [filterMap_eq_nil_iff]
    intro ts _
    simp [transportServerClaim, henabled]
  rw [if_neg henabled, hnone, hvss, hcontest]
  rfl

end Claims

/-! ## Warnings about routes -/

/-- Warnings about routes start with `V` or `p`; those about lost hosts start with `h`. -/
def IsRouteWarning (w : String) : Prop :=
  w.toList.head? = some 'V' ∨ w.toList.head? = some 'p'

theorem head?_append {a : String} {ch : Char} (h : a.toList.head? = some ch) (b : String) :
    (a ++ b).toList.head? = some ch := by
  rw [String.toList_append, List.head?_append, h]
  rfl

theorem head_hostTaken (host : String) : (hostTaken host).toList.head? = some 'h' :=
  head?_append (head?_append (by decide) _) _

theorem IsRouteWarning.ne_hostTaken {w : String} (h : IsRouteWarning w) (host : String) :
    w ≠ hostTaken host := by
  rintro rfl
  rcases h with h | h <;> simp [head_hostTaken] at h

theorem isRouteWarning_missingVSR (key : String) : IsRouteWarning (missingVSR key) :=
  .inl (head?_append (head?_append (by decide) _) _)

theorem isRouteWarning_invalidVSR (key err : String) : IsRouteWarning (invalidVSR key err) :=
  .inl (head?_append (head?_append (head?_append (by decide) _) _) _)

theorem isRouteWarning_duplicateVSR (vs : ObjectMeta) (key : String) :
    IsRouteWarning (duplicateVSR vs key) :=
  .inl (head?_append (head?_append (head?_append (by decide) _) _) _)

def RouteWarnings (ws : List String) : Prop := ∀ w ∈ ws, IsRouteWarning w

theorem RouteWarnings.nil : RouteWarnings [] := forall_mem_nil _

theorem RouteWarnings.single {w : String} (h : IsRouteWarning w) : RouteWarnings [w] :=
  forall_mem_singleton.mpr h

theorem RouteWarnings.append {ws ws' : List String} (h : RouteWarnings ws)
    (h' : RouteWarnings ws') : RouteWarnings (ws ++ ws') :=
  forall_mem_append.mpr ⟨h, h'⟩

theorem routeWarnings_dropSeenVSRs (vs : ObjectMeta) (seen : List String)
    (vsrs : List VirtualServerRoute) : RouteWarnings (dropSeenVSRs vs seen vsrs).2.1 := by
  induction vsrs generalizing seen with
  | nil => exact .nil
  | cons vsr vsrs ih =>
    unfold dropSeenVSRs
    by_cases hseen : objectKey vsr ∈ seen
    · rw [if_pos hseen]
      exact (RouteWarnings.single (isRouteWarning_duplicateVSR _ _)).append (ih _)
    · rw [if_neg hseen]
      exact ih _

section Warnings

variable (env : Env) (routes : Store VirtualServerRoute)

theorem routeWarnings_validateVSRs (r : Route) (host : String) (nspace : ResourceName) :
    RouteWarnings (validateVSRs env routes r host nspace).2 := by
  simp only [validateVSRs]
  cases routes.get (vsrKeyOf nspace r.route) with
  | none => exact .single (isRouteWarning_missingVSR _)
  | some vsr =>
    simp only
    cases env.validateVirtualServerRouteForVirtualServer vsr host [r.path] with
    | none => exact .nil
    | some err => exact .single (isRouteWarning_invalidVSR _ _)

theorem routeWarnings_visit (sel : LabelSelector) (host path key : String)
    {acc : SelectorMatches} (h : RouteWarnings acc.warnings) :
    RouteWarnings (acc.visit env routes sel host path key).warnings := by
  unfold SelectorMatches.visit
  cases routes.get key with
  | none => exact h
  | some vsr =>
    simp only
    split
    · split
      · exact h.append (.single (isRouteWarning_invalidVSR _ _))
      · exact h
    · exact h

theorem routeWarnings_validateVSRSelectors (order : List String) (selector : RouteSelector)
    (path host : String) :
    RouteWarnings (validateVSRSelectors env routes order selector path host).2.2 := by
  unfold validateVSRSelectors
  cases env.labelSelectorAsSelector selector.matchLabels with
  | error err =>
    exact .single (.inl (head?_append (head?_append (head?_append (by decide) _) _) _))
  | ok sel =>
    exact foldlRecOn (motive := fun acc : SelectorMatches => RouteWarnings acc.warnings)
      order _ .nil fun acc hacc key _ => routeWarnings_visit env routes sel host path key hacc

theorem routeWarnings_collectRegexNamedRoute (vs : VirtualServer) (name path : String) (i : Nat)
    {col : VsrCollection} (h : RouteWarnings col.warnings) :
    RouteWarnings (col.collectRegexNamedRoute routes vs name path i).warnings := by
  simp only [VsrCollection.collectRegexNamedRoute]
  cases routes.get (vsrKeyOf vs.objectMeta.nspace name) with
  | none => exact h.append (.single (isRouteWarning_missingVSR _))
  | some vsr =>
    simp only
    split
    · split <;> exact h
    · exact h

theorem routeWarnings_collectRoute (ord : Order) (vs : VirtualServer) (r : Route) (i : Nat)
    {col : VsrCollection} (h : RouteWarnings col.warnings) :
    RouteWarnings (col.collectRoute env routes ord vs r i).warnings := by
  simp only [VsrCollection.collectRoute]
  split
  · exact routeWarnings_collectRegexNamedRoute routes vs _ _ _ h
  split
  · exact (h.append (routeWarnings_validateVSRs env routes r _ _)).append
      (routeWarnings_dropSeenVSRs _ _ _)
  · split
    · exact (h.append (routeWarnings_validateVSRSelectors env routes _ _ _ _)).append
        (routeWarnings_dropSeenVSRs _ _ _)
    · exact h

theorem routeWarnings_validateAndBuildRegexVSRs (entries : GoMap RegexVSREntry) (host : String) :
    RouteWarnings (validateAndBuildRegexVSRs env entries host).2 := by
  refine foldlRecOn (motive := fun acc : List VirtualServerRoute × List String =>
    RouteWarnings acc.2) _ _ .nil fun acc hacc e _ => ?_
  cases hv : env.validateVirtualServerRouteForVirtualServer e.2.vsr host e.2.paths with
  | none => simpa [hv] using hacc
  | some err =>
    simp only [hv]
    exact hacc.append (.single (isRouteWarning_invalidVSR _ _))

theorem routeWarnings_pathConflicts (vsrs : List VirtualServerRoute) :
    RouteWarnings (pathConflicts vsrs).warnings := by
  refine foldlRecOn (motive := fun acc : PathConflicts => RouteWarnings acc.warnings)
    vsrs _ .nil fun acc hacc vsr _ => ?_
  refine foldlRecOn (motive := fun acc : PathConflicts => RouteWarnings acc.warnings)
    vsr.spec.subroutes _ hacc fun acc hacc subroute _ => ?_
  simp only [PathConflicts.visit]
  cases acc.paths[Validation.normalizePath subroute.path]? with
  | none => exact hacc
  | some path =>
    exact hacc.append
      (.single (.inr (head?_append (head?_append (head?_append (by decide) _) _) _)))

theorem routeWarnings_buildVirtualServerRoutes (ord : Order) (vs : VirtualServer) :
    RouteWarnings (buildVirtualServerRoutes env routes ord vs).2.2 := by
  have hcollected : RouteWarnings (classifyAndCollectVSRs env routes ord vs).warnings :=
    foldlRecOn (motive := fun col : VsrCollection => RouteWarnings col.warnings)
      vs.spec.routes.zipIdx _ .nil fun col hcol r _ =>
        routeWarnings_collectRoute env routes ord vs r.1 r.2 hcol
  exact ((hcollected.append (routeWarnings_validateAndBuildRegexVSRs env _ _)).append
    (routeWarnings_dropSeenVSRs _ _ _)).append (routeWarnings_pathConflicts _)

end Warnings

/-! ## Names of the claims -/

section Names

theorem map_filterMap_sublist {α β γ : Type} {f : α → Option β} {g : β → γ} {key : α → γ}
    (h : ∀ a b, f a = some b → g b = key a) (l : List α) :
    ((l.filterMap f).map g).Sublist (l.map key) := by
  induction l with
  | nil => simp
  | cons a l ih =>
    cases ha : f a with
    | none =>
      rw [filterMap_cons_none ha]
      exact ih.cons _
    | some b =>
      rw [filterMap_cons_some ha, map_cons, map_cons, h a b ha]
      exact ih.cons_cons _

variable (env : Env) (c : Configuration) (ord : Order)

theorem object_ingressResource (ing : Ingress) : (ingressResource c ing).object = .ingress ing := by
  unfold ingressResource
  split <;> rfl

/-- Listeners set ports and addresses and nothing else. -/
theorem buildListeners_keeps (vsc : VirtualServerConfiguration) :
    let built := buildListenersForVSConfiguration c vsc
    built.virtualServer = vsc.virtualServer ∧ built.warnings = vsc.warnings ∧
      built.virtualServerRoutes = vsc.virtualServerRoutes ∧
      built.virtualServerRouteSelectors = vsc.virtualServerRouteSelectors ∧
      { built with warnings := [] } =
        buildListenersForVSConfiguration c { vsc with warnings := [] } := by
  unfold buildListenersForVSConfiguration
  cases vsc.virtualServer.spec.listener with
  | none => exact ⟨rfl, rfl, rfl, rfl, rfl⟩
  | some listener =>
    cases c.globalConfiguration with
    | none => exact ⟨rfl, rfl, rfl, rfl, rfl⟩
    | some gc =>
      simp only
      split <;> split <;> exact ⟨rfl, rfl, rfl, rfl, rfl⟩

theorem object_virtualServerResource (vsrs : List VirtualServerRoute) (vs : VirtualServer) :
    (virtualServerResource env c ord vsrs vs).object = .virtualServer vs := by
  unfold virtualServerResource
  exact congrArg ConfigurationObject.virtualServer (buildListeners_keeps c _).1

/-- The object is the one its store holds. -/
def Stored : ConfigurationObject → Prop
  | .ingress ing => c.ingresses.get (objectKey ing) = some ing
  | .virtualServer vs => c.virtualServers.get (objectKey vs) = some vs
  | .virtualServerRoute vsr => c.virtualServerRoutes.get (objectKey vsr) = some vsr
  | .transportServer ts => c.transportServers.get (objectKey ts) = some ts

/-- The stored object asks for the host: a rule of an Ingress that is neither a minion nor
converted, a VirtualServer or, with TLS passthrough, a passthrough TransportServer. -/
def ClaimsHost (host : String) : ConfigurationObject → Prop
  | .ingress ing => Stored c (.ingress ing) ∧ isMinion ing = false ∧
      challengeVSR env c ing = none ∧ host ∈ ing.spec.rules.map IngressRule.host
  | .virtualServer vs => Stored c (.virtualServer vs) ∧ vs.spec.host = host
  | .virtualServerRoute _ => False
  | .transportServer ts => Stored c (.transportServer ts) ∧ env.isTLSPassthroughEnabled = true ∧
      isTLSPassthrough ts = true ∧ ts.spec.host = host

variable {c}

private theorem objectKind_slash_free (x : ConfigurationObject) : '/' ∉ x.kind.toList := by
  cases x <;> dsimp only [ConfigurationObject.kind] <;> decide

variable {x : ConfigurationObject}

/-- A name consists of a kind and a key. -/
theorem keyWithKind_inj {y : ConfigurationObject} :
    x.keyWithKind = y.keyWithKind ↔
      x.kind = y.kind ∧ getResourceKey x.objectMeta = getResourceKey y.objectMeta := by
  rw [keyWithKind, keyWithKind, getResourceKeyWithKind_eq, getResourceKeyWithKind_eq]
  constructor
  · exact slash_split (objectKind_slash_free x) (objectKind_slash_free y)
  · intro h
    rw [h.1, h.2]

def version (c : Configuration) : ConfigurationObject → Option ConfigurationObject
  | .ingress ing => (c.ingresses.get (objectKey ing)).map .ingress
  | .virtualServer vs => (c.virtualServers.get (objectKey vs)).map .virtualServer
  | .virtualServerRoute vsr => (c.virtualServerRoutes.get (objectKey vsr)).map .virtualServerRoute
  | .transportServer ts => (c.transportServers.get (objectKey ts)).map .transportServer

theorem version_of_stored {y : ConfigurationObject} (h : Stored c y)
    (hname : y.keyWithKind = x.keyWithKind) : c.version x = some y := by
  obtain ⟨hkind, hkey⟩ := keyWithKind_inj.mp hname
  cases x <;> cases y <;>
    simp only [ConfigurationObject.kind, ingressKind, virtualServerKind, virtualServerRouteKind,
      transportServerKind, String.reduceEq] at hkind
  all_goals
    simp only [objectMeta] at hkey
    simp only [Stored, objectKey, ApiObject.objectMeta] at h
    simp [version, objectKey, ApiObject.objectMeta, ← hkey, h]

theorem Stored.eq_of_name {y : ConfigurationObject} (hx : Stored c x) (hy : Stored c y)
    (h : x.keyWithKind = y.keyWithKind) : x = y :=
  Option.some.inj ((version_of_stored hx rfl).symm.trans (version_of_stored hy h.symm))

theorem ClaimsHost.stored {env : Env} {h : String} (hx : ClaimsHost env c h x) : Stored c x := by
  cases x with
  | ingress | virtualServer => exact hx.1
  | virtualServerRoute vsr => exact hx.elim
  | transportServer ts => exact hx.1

end Names

/-! ## Claims and objects -/

section Objects

variable {env : Env} {c : Configuration} {ord : Order} {e : Resource × List String}

theorem ingressClaim_eq_some {ing : Ingress} : ingressClaim env c ing = some e ↔
    (ingressResource c ing, ing.spec.rules.map IngressRule.host) = e ∧ isMinion ing = false ∧
      challengeVSR env c ing = none := by
  unfold ingressClaim
  cases isMinion ing with
  | true => simp
  | false => cases challengeVSR env c ing <;> simp

theorem transportServerClaim_eq_some {ts : TransportServer} :
    transportServerClaim env ts = some e ↔
      (.transportServer { transportServer := ts }, [ts.spec.host]) = e ∧
        env.isTLSPassthroughEnabled = true ∧ isTLSPassthrough ts = true := by
  rw [transportServerClaim, Option.ite_none_right_eq_some, Option.some.injEq,
    Bool.and_eq_true_iff, and_comm]

variable (env c ord) in
/-- Whose a claim is: of an Ingress that is neither a minion nor a challenge, of a VirtualServer, or
of a TransportServer for TLS passthrough. -/
inductive HostClaim : Resource × List String → Prop
  | ingress {ing : Ingress} (hing : Stored c (.ingress ing)) (hminion : isMinion ing = false)
      (hnone : challengeVSR env c ing = none) :
      HostClaim (ingressResource c ing, ing.spec.rules.map IngressRule.host)
  | virtualServer {vs : VirtualServer} (hvs : Stored c (.virtualServer vs)) :
      HostClaim (virtualServerClaim env c ord vs)
  | transportServer {ts : TransportServer} (hts : Stored c (.transportServer ts))
      (henabled : env.isTLSPassthroughEnabled = true) (hp : isTLSPassthrough ts = true) :
      HostClaim (.transportServer { transportServer := ts }, [ts.spec.host])

theorem hostClaim_of_mem (h : e ∈ hostClaims env c ord) : HostClaim env c ord e := by
  unfold hostClaims at h
  simp only [mem_append, mem_filterMap, mem_map, Store.mem_sorted] at h
  rcases h with (⟨ing, hing, he⟩ | ⟨vs, hvs, rfl⟩) | ⟨ts, hts, he⟩
  · obtain ⟨rfl, hminion, hnone⟩ := ingressClaim_eq_some.mp he
    exact .ingress hing hminion hnone
  · exact .virtualServer hvs
  · obtain ⟨rfl, henabled, hp⟩ := transportServerClaim_eq_some.mp he
    exact .transportServer hts henabled hp

theorem claimsHost_of_mem (h : e ∈ hostClaims env c ord) :
    Stored c e.1.object ∧ ∀ host, host ∈ e.2 ↔ ClaimsHost env c host e.1.object := by
  cases hostClaim_of_mem h with
  | @ingress ing hing hminion hnone =>
    rw [object_ingressResource c ing]
    exact ⟨hing, fun host => by simp [ClaimsHost, hing, hminion, hnone]⟩
  | @virtualServer vs hvs =>
    rw [show (virtualServerClaim env c ord vs).1.object = _ from
      object_virtualServerResource env c ord _ vs]
    exact ⟨hvs, fun host => by simp [ClaimsHost, hvs, virtualServerClaim, eq_comm]⟩
  | @transportServer ts hts henabled hp =>
    rw [show (Resource.transportServer _).object = .transportServer ts from rfl]
    exact ⟨hts, fun host => by simp [ClaimsHost, hts, henabled, hp, eq_comm]⟩

variable (env c ord)

theorem exists_claim {host : String} {x : ConfigurationObject} (h : ClaimsHost env c host x) :
    ∃ e ∈ hostClaims env c ord, e.1.object = x ∧ host ∈ e.2 := by
  unfold hostClaims
  simp only [mem_append, mem_filterMap, mem_map, Store.mem_sorted]
  cases x with
  | ingress ing =>
    obtain ⟨hstored, hminion, hnone, hhost⟩ := h
    exact ⟨_, .inl (.inl ⟨ing, hstored, ingressClaim_eq_some.mpr ⟨rfl, hminion, hnone⟩⟩),
      object_ingressResource c ing, hhost⟩
  | virtualServer vs =>
    obtain ⟨hstored, hhost⟩ := h
    exact ⟨virtualServerClaim env c ord vs, .inl (.inr ⟨vs, hstored, rfl⟩),
      object_virtualServerResource env c ord _ vs, by simp [virtualServerClaim, hhost]⟩
  | virtualServerRoute vsr => exact h.elim
  | transportServer ts =>
    obtain ⟨hstored, henabled, hp, hhost⟩ := h
    exact ⟨_, .inr ⟨ts, hstored, transportServerClaim_eq_some.mpr ⟨rfl, henabled, hp⟩⟩, rfl,
      by simp [hhost]⟩

/-- Stored objects that may claim hosts, in the order of the loops. -/
def contendingObjects : List ConfigurationObject :=
  c.ingresses.sorted.map .ingress ++ c.virtualServers.sorted.map .virtualServer ++
    c.transportServers.sorted.map .transportServer

theorem nodup_sorted {α : Type} [ApiObject α] (s : Store α) : s.sorted.Nodup :=
  List.Nodup.of_map objectKey (s.map_objectKey_sorted ▸ s.nodup_sortedKeys)

theorem nodup_contendingObjects : (contendingObjects c).Nodup := by
  unfold contendingObjects
  simp only [nodup_append, mem_append, mem_map]
  refine ⟨⟨?_, ?_, ?_⟩, ?_, ?_⟩
  · exact (nodup_sorted _).map fun _ _ h => by cases h; rfl
  · exact (nodup_sorted _).map fun _ _ h => by cases h; rfl
  · rintro _ ⟨ing, -, rfl⟩ _ ⟨vs, -, rfl⟩ h
    cases h
  · exact (nodup_sorted _).map fun _ _ h => by cases h; rfl
  · rintro _ (⟨ing, -, rfl⟩ | ⟨vs, -, rfl⟩) _ ⟨ts, -, rfl⟩ h <;> cases h

theorem objects_hostClaims_sublist :
    ((hostClaims env c ord).map fun e => e.1.object).Sublist (contendingObjects c) := by
  unfold hostClaims contendingObjects
  rw [map_append, map_append]
  refine List.Sublist.append (List.Sublist.append ?_ ?_) ?_
  · refine map_filterMap_sublist (fun ing e h => ?_) _
    obtain ⟨rfl, -⟩ := ingressClaim_eq_some.mp h
    exact object_ingressResource c ing
  · rw [map_map]
    exact (map_congr_left fun vs _ =>
      object_virtualServerResource env c ord _ vs).symm ▸ List.Sublist.refl _
  · refine map_filterMap_sublist (fun ts e h => ?_) _
    obtain ⟨rfl, -⟩ := transportServerClaim_eq_some.mp h
    rfl

variable {env c ord} in
theorem eq_of_object_eq {e' : Resource × List String} (he : e ∈ hostClaims env c ord)
    (he' : e' ∈ hostClaims env c ord) (h : e.1.object = e'.1.object) : e = e' :=
  inj_on_of_nodup_map ((nodup_contendingObjects c).sublist
    (objects_hostClaims_sublist env c ord)) he he' h

theorem nodup_names_hostClaims :
    ((hostClaims env c ord).map fun e => hostContest.name e.1).Nodup := by
  have hobjects := (nodup_contendingObjects c).sublist (objects_hostClaims_sublist env c ord)
  rw [nodup_map_iff_inj_on (hobjects.of_map _)]
  intro e he e' he' hname
  refine eq_of_object_eq he he' ?_
  refine (claimsHost_of_mem he).1.eq_of_name (claimsHost_of_mem he').1 ?_
  rw [← getKeyWithKind_eq, ← getKeyWithKind_eq]
  exact hname

theorem nodup_hosts_hostClaims
    (haccepted : ∀ ing, Stored c (.ingress ing) → env.validateIngress ing = none) :
    ∀ e ∈ hostClaims env c ord, e.2.Nodup := by
  intro e he
  cases hostClaim_of_mem he with
  | @ingress ing hing => exact (env.ingress_rules ing (haccepted ing hing)).2
  | virtualServer | transportServer => exact nodup_singleton _

/-- No resource is warned about anything but routes before the contest. -/
theorem routeWarnings_hostClaims (he : e ∈ hostClaims env c ord) : RouteWarnings e.1.warnings := by
  cases hostClaim_of_mem he with
  | ingress _ =>
    unfold ingressResource
    split <;> exact .nil
  | @virtualServer vs _ =>
    have hwarnings : (virtualServerResource env c ord (challenges env c) vs).warnings =
        (buildVirtualServerRoutes env c.virtualServerRoutes ord vs).2.2 :=
      (buildListeners_keeps c _).2.1
    rw [virtualServerClaim, hwarnings]
    exact routeWarnings_buildVirtualServerRoutes env _ ord vs
  | transportServer _ => exact .nil

end Objects

theorem get_resolveHosts (hosts : GoMap String) (resources : GoMap Resource) (h : String) :
    (resolveHosts hosts resources)[h]? = hosts[h]?.bind fun key => resources[key]? :=
  Table.get_filterMap _ _ _

/-- Every claimed host belongs to its oldest claimant, of equally old ones the one with the
greatest UID, and every claimant has one warning for each host it lost and none for a host it
holds. -/
structure HostsArbitrated (env : Env) (c : Configuration)
    (s : State String Resource) : Prop where
  holder : ∀ host x, ClaimsHost env c host x →
    ∃ r, (resolveHosts s.holders s.contenders)[host]? = some r ∧ ClaimsHost env c host r.object ∧
      ∀ y, ClaimsHost env c host y → y ≠ r.object → r.object.objectMeta.age < y.objectMeta.age
  told : ∀ host x, ClaimsHost env c host x →
    ∃ r, s.contenders[x.keyWithKind]? = some r ∧ r.object = x ∧
      r.warnings.count (hostTaken host) =
        if (resolveHosts s.holders s.contenders)[host]? = some r then 0 else 1

section Outcome

variable {env : Env} {c : Configuration} {ord : Order} {order : List (Resource × List String)}
  (hperm : order.Perm (hostClaims env c ord))
  (haccepted : ∀ ing, Stored c (.ingress ing) → env.validateIngress ing = none)

include hperm haccepted

theorem settled_of_perm : Settled hostContest order (run hostContest order) :=
  settled_run ((hperm.map _).nodup_iff.mpr (nodup_names_hostClaims env c ord))
    fun e he => nodup_hosts_hostClaims env c ord haccepted e (hperm.mem_iff.mp he)

theorem holder_of_claim {host : String} {x : ConfigurationObject}
    (hx : ClaimsHost env c host x) :
    ∃ e ∈ order, ∃ r : Resource, host ∈ e.2 ∧ r.bare = e.1.bare ∧
      (run hostContest order).holders[host]? = some r.getKeyWithKind ∧
      (run hostContest order).contenders[r.getKeyWithKind]? = some r ∧
      ∀ e' ∈ order, host ∈ e'.2 → r.age ≤ e'.1.age := by
  have hsettled := settled_of_perm hperm haccepted
  obtain ⟨e₀, he₀, -, hhost₀⟩ := exists_claim env c ord hx
  have hmem : ∀ e ∈ order, host ∈ e.2 → e.1 ∈ claimants host order :=
    fun e he hin => mem_map_of_mem (mem_filter.mpr ⟨he, by simpa using hin⟩)
  cases hk : (run hostContest order).holders[host]? with
  | none =>
    have hin := hmem e₀ (hperm.mem_iff.mpr he₀) hhost₀
    rw [hsettled.holder, Option.map_eq_none_iff, Champion.champion_eq_none] at hk
    rw [hk] at hin
    cases hin
  | some key =>
    obtain ⟨e, he, hhost, hleast, r, hr, hcore, hname⟩ := hsettled.entry_of_holder hk
    obtain rfl : r.getKeyWithKind = key := hname
    have hage : r.age = e.1.age := hostContest.rank_core hcore
    exact ⟨e, he, r, hhost, hcore, rfl, hr, fun e' he' hin' =>
      hage.trans_le (hleast _ (hmem e' he' hin'))⟩

theorem hostsArbitrated_of_perm
    (huids : ∀ x y, Stored c x → Stored c y → x.objectMeta.uid = y.objectMeta.uid → x = y) :
    HostsArbitrated env c (run hostContest order) := by
  have hsettled := settled_of_perm hperm haccepted
  refine ⟨fun host x hx => ?_, fun host x hx => ?_⟩
  · obtain ⟨e, he, r, hhost, hbare, hholder, hr, hleast⟩ := holder_of_claim hperm haccepted hx
    have hobject := object_of_bare hbare
    obtain ⟨hstored, hclaims⟩ := claimsHost_of_mem (hperm.mem_iff.mp he)
    refine ⟨r, by rw [get_resolveHosts, hholder]; exact hr,
      hobject ▸ (hclaims host).mp hhost, fun y hy hne => ?_⟩
    obtain ⟨e', he', hobject', hhost'⟩ := exists_claim env c ord hy
    have hle : r.object.objectMeta.age ≤ y.objectMeta.age := by
      rw [← hobject', objectMeta_object, objectMeta_object]
      exact hleast e' (hperm.mem_iff.mpr he') hhost'
    refine lt_of_le_of_ne hle fun heq => hne ?_
    exact huids y r.object hy.stored (hobject ▸ hstored) (ObjectMeta.age_inj heq).symm
  · obtain ⟨e, he, hobject, hhost⟩ := exists_claim env c ord hx
    obtain ⟨r, hr, hcore, hnotes⟩ := hsettled.contender e (hperm.mem_iff.mpr he)
    have hname := name_of_bare hcore
    have hholds : (run hostContest order).holders[host]? = some e.1.getKeyWithKind ↔
        (resolveHosts (run hostContest order).holders
          (run hostContest order).contenders)[host]? = some r := by
      rw [get_resolveHosts]
      constructor
      · intro hheld
        rw [hheld]
        exact hr
      · intro hresolved
        obtain ⟨e', -, r', -, -, hheld, hr', -⟩ := holder_of_claim hperm haccepted hx
        rw [hheld, Option.bind_some, hr', Option.some.injEq] at hresolved
        rw [hheld, hresolved, hname]
    refine ⟨r, ?_, ?_, ?_⟩
    · rw [← hobject, ← getKeyWithKind_eq]
      exact hr
    · exact (object_of_bare hcore).trans hobject
    have hcount := hnotes.count_eq (hostTaken host)
    rw [count_append, show hostContest.notes e.1 = e.1.warnings from rfl,
      count_eq_zero.mpr fun hin =>
        (routeWarnings_hostClaims env c ord he _ hin).ne_hostTaken host rfl,
      Nat.zero_add, show hostContest.note = hostTaken from rfl,
      count_map_of_injective _ _ (fun _ _ heq => hostTaken_inj.mp heq)] at hcount
    refine hcount.trans ?_
    have hlost : (lost (run hostContest order).holders (hostContest.name e.1) e.2).Nodup :=
      (nodup_hosts_hostClaims env c ord haccepted e he).filter _
    by_cases hheld : (run hostContest order).holders[host]? = some e.1.getKeyWithKind
    · rw [if_pos (hholds.mp hheld), count_eq_zero]
      exact fun hin => (mem_lost.mp hin).2 hheld
    · rw [if_neg (fun hresolved => hheld (hholds.mpr hresolved))]
      exact count_eq_one_of_mem hlost (mem_lost.mpr ⟨hhost, hheld⟩)

end Outcome

/-- Host arbitration picks the oldest claimant of every host and warns the others, whatever the
kinds of the claimants and whatever the order of their claims. -/
theorem host_goes_to_oldest_claimant (env : Env) (c : Configuration) (ord : Order)
    (haccepted : ∀ ing, Stored c (.ingress ing) → env.validateIngress ing = none)
    (huids : ∀ x y, Stored c x → Stored c y → x.objectMeta.uid = y.objectMeta.uid → x = y) :
    HostsArbitrated env c (buildHostsAndResources env c ord).contest ∧
      ∀ order : List (Resource × List String), order.Perm (hostClaims env c ord) →
        HostsArbitrated env c (run hostContest order) := by
  refine ⟨?_, fun order hperm => hostsArbitrated_of_perm hperm haccepted huids⟩
  rw [contest_buildHostsAndResources]
  exact hostsArbitrated_of_perm (List.Perm.refl _) haccepted huids

def cafeVirtualServer : VirtualServer where
  objectMeta := {
    nspace := .of "default"
    name := .of "cafe"
    uid := "1b7a", creationTimestamp := 100 }
  spec := { host := "cafe.example.com" }

def cafeIngress : Ingress where
  objectMeta := {
    nspace := .of "legacy"
    name := .of "cafe"
    uid := "0c3d", creationTimestamp := 200 }
  spec := { rules := [{ host := "tea.example.com" }, { host := "cafe.example.com" }] }

/-- The Ingress is younger and loses one of its hosts. -/
def contestedCafe : Configuration where
  ingresses := Store.empty.put cafeIngress
  virtualServers := Store.empty.put cafeVirtualServer

theorem stored_contestedCafe {x : ConfigurationObject} (h : Stored contestedCafe x) :
    x = .ingress cafeIngress ∨ x = .virtualServer cafeVirtualServer := by
  cases x <;> simp only [Stored, contestedCafe, Store.get_put, Store.get_empty,
    Option.ite_none_right_eq_some, Option.some.injEq, reduceCtorEq] at h
  · exact .inl (congrArg _ h.2.symm)
  · exact .inr (congrArg _ h.2.symm)

theorem host_goes_to_oldest_claimant_cafe :
    let built := (buildHostsAndResources (Env.permissive false) contestedCafe .asGiven).contest
    HostsArbitrated (Env.permissive false) contestedCafe built ∧
      (resolveHosts built.holders built.contenders)["cafe.example.com"]?.map Resource.object =
        some (.virtualServer cafeVirtualServer) := by
  refine ⟨(host_goes_to_oldest_claimant (Env.permissive false) contestedCafe .asGiven ?_ ?_).1,
    by decide +kernel⟩
  · intro ing hing
    obtain h | h := stored_contestedCafe hing
    · cases h
      decide
    · cases h
  · intro x y hx hy
    obtain rfl | rfl := stored_contestedCafe hx <;> obtain rfl | rfl := stored_contestedCafe hy <;>
      decide

end Configuration

end IngressController
