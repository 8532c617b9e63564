import IngressController.Configuration.Problems
import IngressController.Configuration.Rejections
import IngressController.Configuration.AcceptedObjects

/-! # Objects that are neither served nor reported

After startup every stored object should stand behind one of the tables or have a problem. Two
kinds of objects fall between the loops: a challenge Ingress that was converted for a VirtualServer
that does not hold the host, and a VirtualServerRoute with the name of such an Ingress.
-/

namespace IngressController

open IngressController.Configuration ConfigurationObject Resource Arbitration List Env

/-! ## Holders of hosts -/

section Holders

variable {env : Env} {s : Configuration} {ord : Order} {host : String}

/-- The object is the oldest of those that claim the host. -/
def HoldsHost (env : Env) (s : Configuration) (ord : Order) (host : String)
    (x : ConfigurationObject) : Prop :=
  ∃ r, Champion.champion hostContest.rank
    (claimants host (hostClaims env s ord)) = some r ∧ r.object = x

theorem exists_newHosts_iff (hok : StoresOk env s) {x : ConfigurationObject} :
    HoldsHost env s ord host x ↔ ∃ r, (newHosts env s ord)[host]? = some r ∧ r.object = x := by
  refine ((settled_build hok.ingresses).champion_iff fun _ _ => object_of_bare).trans ?_
  simp only [get_newHosts]
  constructor
  · rintro ⟨key, r, hkey, hr, hobject⟩
    exact ⟨_, ⟨key, r, hkey, hr, rfl⟩, (object_activate _ r).trans hobject⟩
  · rintro ⟨_, ⟨key, r, hkey, hr, rfl⟩, hobject⟩
    exact ⟨key, r, hkey, hr, (object_activate _ r).symm.trans hobject⟩

theorem holdsHost_iff (hok : StoresOk env s) {x : ConfigurationObject} :
    HoldsHost env s ord host x ↔
      ∃ r, (rebuildHosts env s ord).1.hosts[host]? = some r ∧ r.object = x := by
  have hsame := sameUpToWarnings_rebuildHosts env s ord
  rw [exists_newHosts_iff hok]
  constructor <;> rintro ⟨r, hr, rfl⟩
  · obtain ⟨r', hr', hbare⟩ := hsame.symm.get hr
    exact ⟨r', hr', object_of_bare hbare.symm⟩
  · obtain ⟨r', hr', hbare⟩ := hsame.get hr
    exact ⟨r', hr', object_of_bare hbare.symm⟩

/-- The routes in the configuration of a VirtualServer: those it attaches, then the challenge
routes of its host. -/
def routesOf (env : Env) (s : Configuration) (ord : Order) (vs : VirtualServer) :
    List VirtualServerRoute :=
  (buildVirtualServerRoutes env s.virtualServerRoutes ord vs).1 ++
    (challenges env s).filter fun vsr => vs.spec.host = vsr.spec.host

theorem routes_of_builtFrom {vsc : VirtualServerConfiguration}
    (h : BuiltFrom env s ord (.virtualServer vsc)) :
    vsc.virtualServerRoutes = routesOf env s ord vsc.virtualServer := by
  obtain ⟨hosts, e, he, hbare⟩ := h
  cases hostClaim_of_mem he with
  | ingress _ =>
    simp only [ingressResource] at hbare
    split at hbare <;> cases hbare
  | @virtualServer vs _ =>
    simp only [virtualServerClaim, virtualServerResource, bare, activate,
      Resource.virtualServer.injEq, VirtualServerConfiguration.mk.injEq] at hbare
    obtain ⟨hvs, hvsrs, -⟩ := hbare
    rw [hvsrs, hvs, (buildListeners_keeps s _).2.2.1, (buildListeners_keeps s _).1]
    rfl
  | transportServer _ => cases hbare

end Holders

/-! ## Objects that claim a host -/

section Claims

variable {env : Env} {c : Configuration} {o : Order}

theorem holds_or_filed_of_claimsHost (hok : StoresOk env c) (hindexed : MinionsIndexed c)
    {host : String} {x : ConfigurationObject} (h : ClaimsHost env c host x) :
    (∃ host', HoldsHost env c o host' x) ∨ Filed (newHostProblems env c o) x.keyWithKind := by
  obtain ⟨e, he, hobject, -⟩ := exists_claim env c o h
  obtain ⟨r₀, hr₀, hcore, -⟩ := build_contender hok.ingresses he
  have hname : r₀.getKeyWithKind = e.1.getKeyWithKind := name_of_bare hcore
  have hx : r₀.object = x := (object_of_bare hcore).trans hobject
  have hheld : ∀ host' : String, (buildHostsAndResources env c o).hosts[host']? =
      some r₀.getKeyWithKind → HoldsHost env c o host' x := by
    intro host' hhost'
    rw [exists_newHosts_iff hok]
    refine ⟨_, get_newHosts.mpr ⟨_, r₀, hname ▸ hhost', hr₀, rfl⟩, ?_⟩
    rw [object_activate, hx]
  cases hproblem : problemWithoutActiveHost (buildHostsAndResources env c o).hosts
      (activate (buildHostsAndResources env c o).hosts r₀) with
  | some p =>
    right
    refine (filed_newHostProblems hindexed).mpr (.inl ⟨_, _, get_newResources.mpr ⟨r₀, hr₀, rfl⟩,
      by rw [hproblem]; rfl, ?_⟩)
    rw [getKeyWithKind_activate, getKeyWithKind_eq, hx]
  | none =>
    left
    obtain ⟨ic, hic, host', hvalid⟩ | ⟨host', hhost'⟩ := problemWithoutActiveHost_eq_none hproblem
    · cases r₀ with
      | ingress ic₀ =>
        obtain ⟨ic', hic', hmarked⟩ := validHosts_activate
          (buildHostsAndResources env c o).hosts ic₀ (validHosts_of_claim he hcore)
        rw [hic', Resource.ingress.injEq] at hic
        subst hic
        exact ⟨host', hheld host' ((hmarked host').mp hvalid).2⟩
      | virtualServer | transportServer => cases hic
    · rw [getKeyWithKind_activate] at hhost'
      exact ⟨host', hheld host' hhost'⟩

end Claims

/-! ## The four kinds -/

/-- What validation is relied on: a master has one rule, passthrough servers are accepted only with
TLS passthrough, a VirtualServer has a host, and a route is accepted for VirtualServers of its host
only. -/
structure Env.ChecksShapes (env : Env) : Prop where
  masters : ∀ ing, env.validateIngress ing = none → isMaster ing = true →
    ing.spec.rules.length = 1
  passthrough : ∀ ts, env.validateTransportServer ts = none → isTLSPassthrough ts = true →
    env.isTLSPassthroughEnabled = true
  hosts : ∀ vs, env.validateVirtualServer vs = none → vs.spec.host ≠ ""
  routes : ∀ vsr host paths, env.validateVirtualServerRouteForVirtualServer vsr host paths = none →
    host ≠ "" → vsr.spec.host = host

/-- The object stands behind one of the tables. A route in a configuration counts for every stored
route that is equal to it. -/
def Served (env : Env) (c : Configuration) (x : ConfigurationObject) : Prop :=
  Shown env c x ∨ ∃ (host : String) (vsc : VirtualServerConfiguration) (vsr : VirtualServerRoute),
    c.hosts[host]? = some (.virtualServer vsc) ∧ vsr ∈ vsc.virtualServerRoutes ∧
      x = .virtualServerRoute vsr

def Reported (c : Configuration) (x : ConfigurationObject) : Prop :=
  Filed c.hostProblems x.keyWithKind ∨ Filed c.listenerProblems x.keyWithKind

def NoSilentDrop (env : Env) (c : Configuration) : Prop :=
  ∀ x, Stored c x → Served env c x ∨ Reported c x

/-- Nothing falls between the loops: a VirtualServer holds the host of every converted challenge
Ingress, and no stored route has the name of a challenge route that stands in its place. -/
structure NothingBetween (env : Env) (c : Configuration) (o : Order) : Prop where
  challenges : ∀ ing, Stored c (.ingress ing) → isMinion ing = false →
    challengeVSR env c ing ≠ none → ∃ vs, HoldsHost env c o ing.firstHost (.virtualServer vs)
  routes : ∀ vsr vs, Stored c (.virtualServerRoute vsr) →
    HoldsHost env c o vsr.spec.host (.virtualServer vs) →
    (∃ v ∈ Configuration.challenges env c, v.spec.host = vsr.spec.host ∧
      objectKey v = objectKey vsr) → vsr ∈ routesOf env c o vs

/-- The tables are those the stores give, and validation checks what is relied on. -/
structure AllRebuilt (env : Env) (c : Configuration) (o o' : Order) : Prop where
  shapes : env.ChecksShapes
  ok : StoresOk env c
  named : c.virtualServers.All fun vs => vs.spec.host ≠ ""
  indexed : MinionsIndexed c
  built : BuiltHosts env c o
  listeners : BuiltListeners c o'

section Kinds

variable {env : Env} {c : Configuration} {o o' : Order} {host : String} {x : ConfigurationObject}
  {ing : Ingress} {v vsr : VirtualServerRoute}

theorem mem_challenges : v ∈ challenges env c ↔
    ∃ ing, Stored c (.ingress ing) ∧ isMinion ing = false ∧ challengeVSR env c ing = some v := by
  simp only [challenges, mem_filterMap, Store.mem_sorted]
  refine exists_congr fun ing => and_congr_right fun _ => ?_
  cases isMinion ing <;> simp

theorem host_of_challengeVSR (h : challengeVSR env c ing = some v) :
    v.spec.host = ing.firstHost := by
  simp only [challengeVSR, convertIngressToVSR] at h
  grind

theorem HoldsHost.unique {y : ConfigurationObject} (hx : HoldsHost env c o host x)
    (hy : HoldsHost env c o host y) : x = y := by
  obtain ⟨r, hr, rfl⟩ := hx
  obtain ⟨r', hr', rfl⟩ := hy
  rw [hr, Option.some.injEq] at hr'
  rw [hr']

theorem map_minions_eq {ic : IngressConfiguration} (h : IngressBuilt c ic)
    (hmaster : ic.isMaster = true) :
    ic.minions.map MinionConfiguration.ingress = minionsOfHost c ic.ingress.firstHost := by
  have hfst : ic.minions = (buildMinionConfigs c ic.ingress.firstHost).1 :=
    congrArg Prod.fst (h.ofHost hmaster)
  rw [hfst, buildMinionConfigs_eq]
  exact map_ingress_values (sorted_minionsOfHost c _)

variable (hc : AllRebuilt env c o o')

include hc

theorem served_of_holdsHost (h : HoldsHost env c o host x) : Served env c x := by
  obtain ⟨r, hr, rfl⟩ := (holdsHost_iff hc.ok).mp h
  rw [← hc.built.hosts] at hr
  exact .inl (.holder hr)

theorem served_or_reported_of_claimsHost (h : ClaimsHost env c host x) :
    Served env c x ∨ Reported c x := by
  obtain ⟨host', hheld⟩ | hfiled := holds_or_filed_of_claimsHost (o := o) hc.ok hc.indexed h
  · exact .inl (served_of_holdsHost hc hheld)
  · rw [← hc.built.problems] at hfiled
    exact .inr (.inl hfiled)

theorem shown_minion (hing : Stored c (.ingress ing)) (hhost : minionHost ing = some host)
    {ic : IngressConfiguration} (hic : (newHosts env c o)[host]? = some (.ingress ic))
    (hmaster : ic.isMaster = true) : Shown env c (.ingress ing) := by
  have hbuiltFrom : IngressBuilt c ic := (builtFrom_newHosts hc.ok hic).kindBuilt
  obtain ⟨-, -, -, hrule⟩ := claimsHost_newHosts hc.ok.ingresses hic
  -- the master has one rule, so its minions are those of the host
  have hfirst : ic.ingress.firstHost = host := by
    have hlength := hc.shapes.masters ic.ingress (hc.ok.ingresses _ hbuiltFrom.stored)
      (hbuiltFrom.isMaster ▸ hmaster)
    obtain ⟨rule, hrules⟩ := length_eq_one_iff.mp hlength
    rw [hrules, map_singleton, mem_singleton] at hrule
    simp [Ingress.firstHost, hrules, hrule]
  have hin : ing ∈ ic.minions.map MinionConfiguration.ingress := by
    rw [map_minions_eq hbuiltFrom hmaster, hfirst, hc.indexed.mem_minionsOfHost]
    exact ⟨hing, hhost⟩
  obtain ⟨m, hm, rfl⟩ := mem_map.mp hin
  obtain ⟨r, hr, hbare⟩ := (sameUpToWarnings_rebuildHosts env c o).symm.get hic
  cases r with
  | ingress ic' =>
    rw [← hc.built.hosts] at hr
    simp only [bare, Resource.ingress.injEq, IngressConfiguration.mk.injEq] at hbare
    exact .minion hr (hbare.2.2.1 ▸ hm)
  | virtualServer | transportServer => cases hbare

theorem served_or_reported_minion (hing : Stored c (.ingress ing)) (hminion : isMinion ing = true) :
    Served env c (.ingress ing) ∨ Reported c (.ingress ing) := by
  have hrules := (env.ingress_rules ing (hc.ok.ingresses ing hing)).1
  have hhost : minionHost ing = some ing.firstHost := by
    simp [minionHost, hminion, hrules]
  cases hmaster : hasMaster (newHosts env c o) ing.firstHost with
  | false =>
    right
    left
    rw [hc.built.problems]
    refine (filed_newHostProblems hc.indexed).mpr (.inr (.inl ⟨ing, ?_, rfl⟩))
    rw [scanOrphans, mem_filter, Store.mem_sorted, hhost]
    exact ⟨hing, by simp [hmaster]⟩
  | true =>
    left
    left
    unfold hasMaster at hmaster
    split at hmaster
    · rename_i ic hic
      exact shown_minion hc hing hhost hic hmaster
    · cases hmaster

theorem virtualServer_of_host {vsc : VirtualServerConfiguration}
    (h : c.hosts[host]? = some (.virtualServer vsc)) :
    HoldsHost env c o host (.virtualServer vsc.virtualServer) ∧
      vsc.virtualServerRoutes = routesOf env c o vsc.virtualServer ∧
      vsc.virtualServer.spec.host = host := by
  rw [hc.built.hosts] at h
  exact ⟨(holdsHost_iff hc.ok).mpr ⟨_, h, rfl⟩,
    routes_of_builtFrom (builtFrom_rebuildHosts hc.ok h),
    (claimsHost_rebuildHosts hc.ok.ingresses h).2⟩

/-- The host of the VirtualServer is not empty, so its routes were compared with it. -/
theorem host_of_mem_virtualServerRoutes {vsc : VirtualServerConfiguration}
    (h : c.hosts[host]? = some (.virtualServer vsc)) (hv : v ∈ vsc.virtualServerRoutes) :
    v.spec.host = host := by
  obtain ⟨-, hroutes, hhost⟩ := virtualServer_of_host hc h
  rw [hc.built.hosts] at h
  have hstored : Stored c (.virtualServer vsc.virtualServer) :=
    (claimsHost_rebuildHosts hc.ok.ingresses h).1
  rw [hroutes] at hv
  obtain hattached | hchallenge := mem_append.mp hv
  · obtain ⟨paths, hvalid⟩ := (attachable_of_attached hattached).accepted
    exact (hc.shapes.routes v _ paths hvalid (hc.named _ _ hstored)).trans hhost
  · exact (of_decide_eq_true (mem_filter.mp hchallenge).2).symm.trans hhost

theorem exists_host_of_holdsHost {vs : VirtualServer}
    (h : HoldsHost env c o host (.virtualServer vs)) :
    ∃ vsc, c.hosts[host]? = some (.virtualServer vsc) ∧ vsc.virtualServer = vs ∧
      vsc.virtualServerRoutes = routesOf env c o vs ∧ vs.spec.host = host := by
  obtain ⟨r, hr, hobject⟩ := (holdsHost_iff hc.ok).mp h
  rw [← hc.built.hosts] at hr
  cases r with
  | virtualServer vsc =>
    cases hobject
    exact ⟨vsc, hr, rfl, (virtualServer_of_host hc hr).2⟩
  | ingress | transportServer => cases hobject

theorem not_reported_of_converted (hing : Stored c (.ingress ing)) (hregular : isMinion ing = false)
    (hconverted : challengeVSR env c ing ≠ none) : ¬ Reported c (.ingress ing) := by
  rintro (hfiled | hfiled)
  · rw [hc.built.problems, filed_newHostProblems hc.indexed] at hfiled
    obtain ⟨key, r, hr, -, hname⟩ | ⟨ing', hing', hname⟩ | ⟨vsr, -, -, hname⟩ := hfiled
    · obtain ⟨r₀, hr₀, rfl⟩ := get_newResources.mp hr
      obtain ⟨-, e, he, hcore⟩ := build_resource hc.ok.ingresses hr₀
      obtain ⟨host, hclaims⟩ := exists_host_of_claim hc.ok he
      rw [getKeyWithKind_activate, name_of_bare hcore, getKeyWithKind_eq] at hname
      rw [hclaims.stored.eq_of_name hing hname] at hclaims
      exact hconverted hclaims.2.2.1
    · rw [scanOrphans, mem_filter, Store.mem_sorted] at hing'
      obtain ⟨hstored, horphan⟩ := hing'
      have hstored' : Stored c (.ingress ing') := hstored
      cases hstored'.eq_of_name hing hname
      simp [minionHost, hregular] at horphan
    · simp [keyWithKind_inj, ConfigurationObject.kind, ingressKind, virtualServerRouteKind] at hname
  · rw [hc.listeners.problems, filed_newListenerProblems] at hfiled
    obtain ⟨key, tsc, -, -, hname⟩ := hfiled
    simp [getKeyWithKind_eq, keyWithKind_inj, ConfigurationObject.kind, object, ingressKind,
      transportServerKind] at hname

theorem served_converted_iff (hing : Stored c (.ingress ing)) (hregular : isMinion ing = false)
    (hconverted : challengeVSR env c ing ≠ none) : Served env c (.ingress ing) ↔
      ∃ vs, HoldsHost env c o ing.firstHost (.virtualServer vs) := by
  constructor
  · rintro (hshown | ⟨host, vsc, vsr, -, -, hx⟩)
    · generalize hx : ingress ing = x at hshown
      cases hshown with
      | @holder host r h =>
        rw [hc.built.hosts] at h
        have hclaims := claimsHost_rebuildHosts hc.ok.ingresses h
        rw [← hx] at hclaims
        exact absurd hclaims.2.2.1 hconverted
      | @minion host ic m h hm =>
        cases hx
        rw [hc.built.hosts] at h
        have hic : IngressBuilt c ic := (builtFrom_rebuildHosts hc.ok h).kindBuilt
        cases hmaster : ic.isMaster with
        | false =>
          rw [hic.regular hmaster] at hm
          cases hm
        | true =>
          have hin := mem_map_of_mem (f := MinionConfiguration.ingress) hm
          rw [map_minions_eq hic hmaster, hc.indexed.mem_minionsOfHost] at hin
          have hminion := hin.2
          simp [minionHost, hregular] at hminion
      | @challenge host vsc vsr ing' h hin hstored hregular' hchallenge =>
        cases hx
        have hsame := host_of_mem_virtualServerRoutes hc h hin
        rw [host_of_challengeVSR hchallenge] at hsame
        exact ⟨vsc.virtualServer, hsame ▸ (virtualServer_of_host hc h).1⟩
      | route | listener => cases hx
    · cases hx
  · rintro ⟨vs, hheld⟩
    obtain ⟨v, hv⟩ := Option.ne_none_iff_exists'.mp hconverted
    obtain ⟨vsc, hvsc, rfl, hroutes, hhost⟩ := exists_host_of_holdsHost hc hheld
    refine .inl (.challenge hvsc ?_ hing hregular hv)
    rw [hroutes]
    refine mem_append_right _ (mem_filter.mpr
      ⟨mem_challenges.mpr ⟨ing, hing, hregular, hv⟩, decide_eq_true ?_⟩)
    rw [hhost, host_of_challengeVSR hv]

theorem served_route_iff : Served env c (.virtualServerRoute vsr) ↔
      ∃ vs, HoldsHost env c o vsr.spec.host (.virtualServer vs) ∧ vsr ∈ routesOf env c o vs := by
  have hattached : ∀ {host : String} {vsc : VirtualServerConfiguration},
      c.hosts[host]? = some (.virtualServer vsc) → vsr ∈ vsc.virtualServerRoutes →
      ∃ vs, HoldsHost env c o vsr.spec.host (.virtualServer vs) ∧ vsr ∈ routesOf env c o vs := by
    intro host vsc h hin
    obtain ⟨hheld, hroutes, -⟩ := virtualServer_of_host hc h
    rw [host_of_mem_virtualServerRoutes hc h hin]
    exact ⟨vsc.virtualServer, hheld, hroutes ▸ hin⟩
  constructor
  · rintro (hshown | ⟨host, vsc, vsr', h, hin, hx⟩)
    · generalize hx : virtualServerRoute vsr = x at hshown
      cases hshown with
      | @holder host r h => cases r <;> cases hx
      | route h hin _ =>
        cases hx
        exact hattached h hin
      | minion | challenge | listener => cases hx
    · cases hx
      exact hattached h hin
  · rintro ⟨vs, hheld, hin⟩
    obtain ⟨vsc, hvsc, rfl, hroutes, -⟩ := exists_host_of_holdsHost hc hheld
    exact .inr ⟨vsr.spec.host, vsc, vsr, hvsc, hroutes ▸ hin, rfl⟩

theorem problemOfVsr_eq_none_iff : problemOfVsr (newHosts env c o) vsr = none ↔
      ∃ vs, HoldsHost env c o vsr.spec.host (.virtualServer vs) ∧
        ∃ v ∈ routesOf env c o vs, objectKey v = objectKey vsr := by
  have hsameName : ∀ vsrs : List VirtualServerRoute, (vsrs.any fun v =>
      vsr.objectMeta.nspace = v.objectMeta.nspace && vsr.objectMeta.name = v.objectMeta.name) =
        true ↔ ∃ v ∈ vsrs, objectKey v = objectKey vsr := by
    intro vsrs
    simp only [any_eq_true, Bool.and_eq_true, decide_eq_true_eq]
    refine exists_congr fun v => and_congr_right fun _ => ?_
    exact getResourceKey_inj.symm.trans eq_comm
  constructor
  · intro h
    unfold problemOfVsr at h
    split at h
    · rename_i vsc hvsc
      split at h
      · rename_i hany
        refine ⟨vsc.virtualServer, (exists_newHosts_iff hc.ok).mpr ⟨_, hvsc, rfl⟩, ?_⟩
        rw [← routes_of_builtFrom (builtFrom_newHosts hc.ok hvsc)]
        exact (hsameName _).mp hany
      · cases h
    · cases h
  · rintro ⟨vs, hheld, hroute⟩
    obtain ⟨r, hr, hobject⟩ := (exists_newHosts_iff hc.ok).mp hheld
    cases r with
    | virtualServer vsc =>
      cases hobject
      rw [← routes_of_builtFrom (builtFrom_newHosts hc.ok hr)] at hroute
      rw [problemOfVsr, hr]
      exact if_pos ((hsameName _).mpr hroute)
    | ingress | transportServer => cases hobject

theorem reported_route_iff (hvsr : Stored c (.virtualServerRoute vsr)) :
    Reported c (.virtualServerRoute vsr) ↔
      ¬ ∃ vs, HoldsHost env c o vsr.spec.host (.virtualServer vs) ∧
        ∃ v ∈ routesOf env c o vs, objectKey v = objectKey vsr := by
  rw [← problemOfVsr_eq_none_iff hc, ← ne_eq, Option.ne_none_iff_isSome, Reported,
    hc.built.problems, hc.listeners.problems, filed_newHostProblems hc.indexed,
    filed_newListenerProblems]
  constructor
  · rintro ((⟨key, r, -, -, hname⟩ | ⟨ing, -, hname⟩ | ⟨vsr', hvsr', hproblem, hname⟩) |
      ⟨key, tsc, -, -, hname⟩)
    · exact absurd hname (getKeyWithKind_ne_route r vsr)
    · simp [keyWithKind_inj, ConfigurationObject.kind, ingressKind, virtualServerRouteKind] at hname
    · cases hvsr'.eq_of_name hvsr hname
      exact hproblem
    · exact absurd hname (getKeyWithKind_ne_route _ vsr)
  · intro hproblem
    exact .inl (.inr (.inr ⟨vsr, hvsr, hproblem, rfl⟩))

theorem served_or_reported_transportServer {ts : TransportServer}
    (hts : Stored c (.transportServer ts)) :
    Served env c (.transportServer ts) ∨ Reported c (.transportServer ts) := by
  cases hpass : isTLSPassthrough ts with
  | true =>
    have henabled := hc.shapes.passthrough ts (hc.ok.transportServers ts hts) hpass
    exact served_or_reported_of_claimsHost hc
      (x := .transportServer ts) ⟨hts, henabled, hpass, rfl⟩
  | false =>
    have hregular : ts.spec.listener.protocol ≠ tlsPassthroughListenerProtocol := by
      intro hprotocol
      simp [isTLSPassthrough, hprotocol] at hpass
    obtain ⟨e, he⟩ : ∃ e, listenerClaim c ts = some e := by
      simp only [listenerClaim, if_neg hregular]
      cases findListener c ts <;> exact ⟨_, rfl⟩
    obtain ⟨heq, -, -⟩ := listenerClaim_spec c he
    obtain ⟨tsc, htsc, hcore, -⟩ := (settled_listeners c o').contender e (mem_of_claim c o' hts he)
    have htsc' : tsc.transportServer = ts := (transportServer_of_bare hcore).trans heq
    cases hproblem : problemWithoutActiveListener (newListenerHosts c o') tsc with
    | some p =>
      right
      right
      rw [hc.listeners.problems]
      refine filed_newListenerProblems.mpr ⟨_, tsc, htsc, by rw [hproblem]; rfl, ?_⟩
      rw [getKeyWithKind_eq, object, htsc']
    | none =>
      left
      left
      simp only [problemWithoutActiveListener] at hproblem
      split at hproblem
      · cases hproblem
      rename_i holder hholder
      split at hproblem
      · rename_i hequal
        -- the holder has the name of the TransportServer, so it is made from it
        have hresources : (transportServer tsc).isEqual (.transportServer holder) =
          true := hequal
        have hkey := getKeyWithKind_transportServer_inj.mp (getKeyWithKind_of_isEqual hresources)
        obtain ⟨l, hclaims, -⟩ := claimsPlace_newListenerHosts hholder
        have hstored : Stored c (.transportServer holder.transportServer) := hclaims.stored
        have hsame := hstored.eq_of_name hts
          (keyWithKind_inj.mpr ⟨rfl, hkey.symm.trans (congrArg objectKey htsc')⟩)
        rw [← hsame]
        exact .listener (hc.listeners.listenerHosts ▸ hholder)
      · cases hproblem

theorem NoSilentDrop.nothingBetween (h : NoSilentDrop env c) : NothingBetween env c o where
  challenges ing hing hregular hconverted :=
    (served_converted_iff hc hing hregular hconverted).mp
      ((h _ hing).resolve_right
        (not_reported_of_converted hc hing hregular hconverted))
  routes vsr vs hvsr hheld hrival := by
    obtain ⟨v, hv, hhost, hkey⟩ := hrival
    obtain ⟨-, -, -, -, hvsHost⟩ := exists_host_of_holdsHost hc hheld
    have hin : v ∈ routesOf env c o vs :=
      mem_append_right _ (mem_filter.mpr ⟨hv, decide_eq_true (hvsHost.trans hhost.symm)⟩)
    have hsilent : ¬ Reported c (.virtualServerRoute vsr) := fun hreported =>
      (reported_route_iff hc hvsr).mp hreported ⟨_, hheld, v, hin, hkey⟩
    obtain ⟨vs', hheld', hserved⟩ := (served_route_iff hc).mp
      ((h _ hvsr).resolve_right hsilent)
    cases hheld.unique hheld'
    exact hserved

theorem NothingBetween.noSilentDrop (h : NothingBetween env c o) : NoSilentDrop env c := by
  intro x hx
  cases x with
  | ingress ing =>
    cases hminion : isMinion ing with
    | true => exact served_or_reported_minion hc hx hminion
    | false =>
      by_cases hconverted : challengeVSR env c ing = none
      · obtain ⟨rule, hrule⟩ := exists_mem_of_ne_nil _
          (env.ingress_rules ing (hc.ok.ingresses ing hx)).1
        exact served_or_reported_of_claimsHost hc (x := .ingress ing)
          ⟨hx, hminion, hconverted, mem_map_of_mem hrule⟩
      · left
        rw [served_converted_iff hc hx hminion hconverted]
        exact h.challenges ing hx hminion hconverted
  | virtualServer vs =>
    exact served_or_reported_of_claimsHost hc (x := .virtualServer vs) ⟨hx, rfl⟩
  | virtualServerRoute vsr =>
    rw [reported_route_iff hc hx, served_route_iff hc]
    by_cases hnamed : ∃ vs, HoldsHost env c o vsr.spec.host (.virtualServer vs) ∧
        ∃ v ∈ routesOf env c o vs, objectKey v = objectKey vsr
    · obtain ⟨vs, hheld, v, hv, hkey⟩ := hnamed
      refine .inl ⟨vs, hheld, ?_⟩
      obtain hattached | hchallenge := mem_append.mp hv
      · have hstored : Stored c (.virtualServerRoute v) := stored_of_attached hattached
        cases hstored.eq_of_name hx (keyWithKind_inj.mpr ⟨rfl, hkey⟩)
        exact hv
      · obtain ⟨hin, hhost⟩ := mem_filter.mp hchallenge
        obtain ⟨-, -, -, -, hvsHost⟩ := exists_host_of_holdsHost hc hheld
        exact h.routes vsr _ hx hheld ⟨v, hin, (of_decide_eq_true hhost).symm.trans hvsHost, hkey⟩
    · exact .inr hnamed
  | transportServer ts =>
    exact served_or_reported_transportServer hc hx

end Kinds

/-- The weight path is not given a VirtualServer that validation rejects. -/
def Op.AcceptsWeights (env : Env) : Op → Prop
  | .haltIfVSConfigInvalid vsNew => env.validateVirtualServer vsNew = none
  | _ => True

/-- Without rejections on the weight path the hosts are always those the stores give. -/
theorem builtHosts_accepted_runs {env : Env} {steps : List (Order × Op)}
    (hsteps : ∀ step ∈ steps, step.2.AcceptsWeights env) :
    (Op.runs env {} steps).startupComplete = true →
      ∃ o, BuiltHosts env (Op.runs env {} steps) o := by
  induction steps using reverseRecOn with
  | nil => exact fun hstartup => nomatch hstartup
  | append_singleton steps step ih =>
    have hrun : Op.runs env {} (steps ++ [step]) =
        (step.2.run env step.1 (Op.runs env {} steps)).1 := by
      rw [Op.runs, foldl_append]
      rfl
    have hbefore := ih fun step' hin => hsteps step' (mem_append_left _ hin)
    have hstep := hsteps step (mem_append_right _ mem_cons_self)
    rw [hrun]
    generalize Op.runs env {} steps = c at hbefore
    obtain ⟨ord, op⟩ := step
    intro hstartup
    cases op with
    | api call =>
      have hstartup' := (Call.run_startupComplete env ord c call).symm.trans hstartup
      obtain ⟨o, hbuilt⟩ := hbefore hstartup'
      obtain hnew | hold := hbuilt.run hstartup' ord call
      · exact ⟨ord, hnew⟩
      · exact ⟨o, hold⟩
    | completeStartup =>
      exact ⟨ord, builtHosts_rebuildHosts (c := { c with startupComplete := true })⟩
    | haltIfVSConfigInvalid vsNew =>
      have hvalid : env.validateVirtualServer vsNew = none := hstep
      rw [Op.run, haltIfVSConfigInvalid_eq, if_neg (fun h => h.1 hvalid)]
      exact ⟨ord, builtHosts_rebuildHosts⟩
    | haltIfVSRConfigInvalid vsrNew =>
      revert hstartup
      simp only [Op.run, haltIfVSRConfigInvalid]
      cases env.validateVirtualServerRoute vsrNew with
      | some err => exact hbefore
      | none => exact fun _ => ⟨ord, builtHosts_rebuildHosts⟩

/-- A step that rejects nothing on the weight path stores VirtualServers with a host only. -/
theorem named_virtualServers_run {env : Env} (hshapes : env.ChecksShapes) {c : Configuration}
    (h : c.virtualServers.All fun vs => vs.spec.host ≠ "") (ord : Order) {op : Op}
    (hop : op.AcceptsWeights env) :
    (op.run env ord c).1.virtualServers.All fun vs => vs.spec.host ≠ "" := by
  cases op with
  | api call =>
    rw [Op.run]
    obtain ⟨hs, hrun⟩ | ⟨stored, hs, hrun⟩ := Call.run_eq env ord c call
    · rw [hrun]
      exact h
    · rw [hrun.1, (call.sameStores_rebuild _ ord stored).virtualServers]
      cases Call.stores_of_store hs with
      | putVirtualServer vs hclass hvalid => exact (h.put _).mpr (hshapes.hosts vs hvalid)
      | dropVirtualServer | removeVirtualServer => exact h.remove _
      | _ => exact h
  | completeStartup =>
    have hsame := sameStores_rebuildHostsAfterStartup env ord { c with startupComplete := true }
    exact hsame.virtualServers ▸ h
  | haltIfVSConfigInvalid vsNew =>
    have hvalid : env.validateVirtualServer vsNew = none := hop
    have hput := (h.put vsNew).mpr (hshapes.hosts vsNew hvalid)
    simp only [Op.run, Configuration.haltIfVSConfigInvalid, hvalid]
    split
    · exact hput
    · exact (hput.put vsNew).mpr (hshapes.hosts vsNew hvalid)
  | haltIfVSRConfigInvalid vsrNew =>
    simp only [Op.run, haltIfVSRConfigInvalid]
    split <;> exact h

theorem named_virtualServers_runs {env : Env} (hshapes : env.ChecksShapes)
    {steps : List (Order × Op)} (hsteps : ∀ step ∈ steps, step.2.AcceptsWeights env) :
    (Op.runs env {} steps).virtualServers.All fun vs => vs.spec.host ≠ "" := by
  induction steps using reverseRecOn with
  | nil => exact fun key vs hvs => nomatch hvs
  | append_singleton steps step ih =>
    rw [Op.runs, foldl_append]
    exact named_virtualServers_run hshapes
      (ih fun step' hin => hsteps step' (mem_append_left _ hin)) step.1
      (hsteps step (mem_append_right _ mem_cons_self))

/-- Along every run without rejections on the weight path, no stored object is dropped silently
exactly if nothing falls between the loops of the last rebuild. -/
theorem no_silent_drop_iff {env : Env} (hshapes : env.ChecksShapes) {steps : List (Order × Op)}
    (hsteps : ∀ step ∈ steps, step.2.AcceptsWeights env)
    (hstartup : (Op.runs env {} steps).startupComplete = true) :
    ∃ o, BuiltHosts env (Op.runs env {} steps) o ∧
      (NoSilentDrop env (Op.runs env {} steps) ↔
        NothingBetween env (Op.runs env {} steps) o) := by
  have hreach : Reachable env (Op.runs env {} steps) := Reachable.init.runs steps
  obtain ⟨o, hbuilt⟩ := builtHosts_accepted_runs hsteps hstartup
  obtain ⟨o', hlisteners⟩ := hreach.builtListeners
  have hc : AllRebuilt env (Op.runs env {} steps) o o' :=
    ⟨hshapes, hreach.tablesOk.stores, named_virtualServers_runs hshapes hsteps,
      hreach.minionsIndexed, hbuilt, hlisteners⟩
  exact ⟨o, hbuilt, fun h => h.nothingBetween hc, fun h => h.noSilentDrop hc⟩

/-! ## A challenge that nobody answers -/

/-- As `Env.permissive`, with the checks that are relied on. -/
def Env.checkingShapes (passthrough : Bool) : Env :=
  validatedBy { permissive passthrough with
    validateIngress := fun ing =>
      if (ing.spec.rules ≠ [] ∧ (ing.spec.rules.map IngressRule.host).Nodup) ∧
          (isMaster ing = true → ing.spec.rules.length = 1) then none
      else some "spec.rules: Invalid value"
    validateTransportServer := fun ts =>
      if (ts.spec.listener.name = tlsPassthroughListenerName ↔
          ts.spec.listener.protocol = tlsPassthroughListenerProtocol) ∧
          (isTLSPassthrough ts = true → passthrough = true) then none
      else some "spec.listener: Invalid value"
    ingress_rules := fun ing h => by
      split at h
      · rename_i hrules
        exact hrules.1
      · cases h
    transportServer_listener := fun ts h => by
      split at h
      · rename_i hlistener
        exact hlistener.1
      · cases h } plainValidator

theorem checksShapes_checkingShapes (passthrough : Bool) :
    (checkingShapes passthrough).ChecksShapes where
  masters ing h := by
    simp only [checkingShapes, validatedBy, ite_eq_left_iff, reduceCtorEq, imp_false,
      not_not] at h
    exact h.2
  passthrough ts h := by
    simp only [checkingShapes, validatedBy, ite_eq_left_iff, reduceCtorEq, imp_false,
      not_not] at h
    exact h.2
  hosts vs h := Validation.VirtualServerValidator.host_of_validateVirtualServer h
  routes vsr host paths h :=
    Validation.VirtualServerValidator.host_of_validateVirtualServerRouteForVirtualServer h

/-- The solver Ingress of cert-manager for the host of the cafe. -/
def cafeSolver : Ingress where
  objectMeta := {
    nspace := .of "cafe"
    name := .of "cm-acme-http-solver"
    uid := "77aa", creationTimestamp := 300
    labels := (∅ : GoMap String).insert "acme.cert-manager.io/http01-solver" "true" }
  spec := { rules := [{
    host := "cafe.example.com"
    http := some [{
      path := "/.well-known/acme-challenge/token"
      backend := { service := some { name := "cm-acme-http-solver", port := { number := 8089 } } }
    }] }] }

/-- An Ingress that is older than the VirtualServer of the cafe. -/
def cafeLegacyIngress : Ingress where
  objectMeta := { cafeIngress.objectMeta with creationTimestamp := 50 }
  spec := { rules := [{ host := "cafe.example.com" }] }

/-- The VirtualServer of the cafe and its solver, after some other Ingresses. -/
def solving (others : List Ingress) : List (Order × Op) :=
  others.map (fun ing => (.asGiven, .api (.addOrUpdateIngress ing))) ++ [
    (.asGiven, .api (.addOrUpdateVirtualServer cafeVirtualServer)),
    (.asGiven, .api (.addOrUpdateIngress cafeSolver)),
    (.asGiven, .completeStartup)]

theorem no_silent_drop_iff_solved :
    NoSilentDrop (checkingShapes false) (Op.runs (checkingShapes false) {} (solving [])) := by
  have hreach : Reachable (checkingShapes false)
    (Op.runs (checkingShapes false) {} (solving [])) := Reachable.init.runs _
  have hsteps : ∀ step ∈ solving [], step.2.AcceptsWeights (checkingShapes false) := by
    simp [solving, Op.AcceptsWeights]
  obtain ⟨o, hbuilt, hiff⟩ := no_silent_drop_iff (checksShapes_checkingShapes false) hsteps rfl
  refine hiff.mpr ⟨fun ing hing _ _ => ⟨cafeVirtualServer, ?_⟩, fun vsr vs hvsr => ?_⟩
  · have hget : (Store.empty.put cafeSolver).get (objectKey ing) = some ing := hing
    simp only [Store.get_put, Store.get_empty, Option.ite_none_right_eq_some,
      Option.some.injEq] at hget
    rw [← hget.2, holdsHost_iff hreach.tablesOk.stores, ← hbuilt.hosts]
    have hheld : (Op.runs (checkingShapes false) {} (solving [])).hosts[
        cafeSolver.firstHost]?.map object = some (.virtualServer cafeVirtualServer) := by
      decide +kernel
    exact Option.map_eq_some_iff.mp hheld
  · cases hvsr

/-- The solver is converted for the VirtualServer, but the old Ingress holds the host. -/
theorem unanswered_challenge_is_dropped :
    let c := Op.runs (checkingShapes false) {} (solving [cafeLegacyIngress])
    Reachable (checkingShapes false) c ∧ c.startupComplete = true ∧
      ¬ NoSilentDrop (checkingShapes false) c := by
  intro c
  have hreach : Reachable (checkingShapes false) c := Reachable.init.runs _
  refine ⟨hreach, rfl, fun h => ?_⟩
  have hbuilt : BuiltHosts (checkingShapes false) c .asGiven := builtHosts_rebuildHosts
  obtain ⟨o', hlisteners⟩ := hreach.builtListeners
  have hsteps : ∀ step ∈ solving [cafeLegacyIngress],
      step.2.AcceptsWeights (checkingShapes false) := by
    simp [solving, Op.AcceptsWeights]
  have hnothing := h.nothingBetween ⟨checksShapes_checkingShapes false, hreach.tablesOk.stores,
    named_virtualServers_runs (checksShapes_checkingShapes false) hsteps, hreach.minionsIndexed,
    hbuilt, hlisteners⟩
  have hstored : Stored c (.ingress cafeSolver) := by
    unfold Stored
    decide +kernel
  obtain ⟨vs, r, hr, hobject⟩ := hnothing.challenges cafeSolver hstored (by decide +kernel)
    (by decide +kernel)
  have hholder : (Champion.champion hostContest.rank (claimants cafeSolver.firstHost
      (hostClaims (checkingShapes false) c .asGiven))).map object =
        some (.ingress cafeLegacyIngress) := by
    decide +kernel
  rw [hr, Option.map_some, hobject] at hholder
  cases hholder

end IngressController
