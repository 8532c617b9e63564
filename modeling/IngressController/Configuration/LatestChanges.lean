import IngressController.Configuration.CurrentTables
import IngressController.Configuration.ChangeReplay

/-! # Changes and the latest configurations

A change of a resource that is still stored should show the configuration the rebuild made,
with its warnings. The hosts refer to the latest configuration by name and miss only objects
that claim no host any more. The listeners look the name up in a table filed without the kind,
so a TransportServer that loses its listener is reported with its old configuration.
-/

namespace IngressController

open IngressController.Configuration ChangeLog ConfigurationObject Resource Arbitration List Option

/-! ## What stays stored -/

def HasName (c : Configuration) (name : String) : Prop :=
  ∃ x, Stored c x ∧ x.keyWithKind = name

section Stores

variable {env : Env} {c c' : Configuration}

theorem SameStores.stored_iff (h : SameStores c c') (x : ConfigurationObject) :
    Stored c' x ↔ Stored c x := by
  cases x <;> simp only [Stored, h.ingresses, h.virtualServers, h.virtualServerRoutes,
    h.transportServers]

/-- An operation leaves what it stored. A rejection on the weight path whose rebuild changed
something also leaves the rejected VirtualServer. -/
theorem Op.sameStores_run (env : Env) (ord : Order) (c : Configuration) (op : Op) :
    SameStores (op.stored env ord c) (op.run env ord c).1 ∨
      ∃ vsNew, op = .haltIfVSConfigInvalid vsNew ∧ env.validateVirtualServer vsNew ≠ none ∧
        (rebuildHosts env (op.stored env ord c) ord).2.1 ≠ [] ∧
        (op.run env ord c).1 = { (rebuildHosts env (op.stored env ord c) ord).1 with
          virtualServers := (op.stored env ord c).virtualServers.put vsNew } := by
  cases op with
  | api call =>
    left
    obtain ⟨hs, hrun⟩ | ⟨stored, hs, hrun⟩ := Call.run_eq env ord c call
    · simp only [Op.stored, Op.run, hs, hrun, getD_none]
      exact ⟨rfl, rfl, rfl, rfl, rfl, rfl, rfl⟩
    · simp only [Op.stored, Op.run, hs, hrun.1, getD_some]
      exact call.sameStores_rebuild env ord stored
  | completeStartup =>
    exact .inl (sameStores_rebuildHostsAfterStartup env ord { c with startupComplete := true })
  | haltIfVSConfigInvalid vsNew =>
    by_cases hkept : env.validateVirtualServer vsNew ≠ none ∧
        (rebuildHosts env ((Op.haltIfVSConfigInvalid vsNew).stored env ord c) ord).2.1 ≠ []
    · refine .inr ⟨vsNew, rfl, hkept.1, hkept.2, ?_⟩
      exact (haltIfVSConfigInvalid_eq env c ord vsNew).trans (if_pos hkept)
    · left
      have hrun := (haltIfVSConfigInvalid_eq env c ord vsNew).trans (if_neg hkept)
      rw [Op.run, hrun]
      exact sameStores_rebuildHosts env ord _
  | haltIfVSRConfigInvalid vsrNew =>
    left
    simp only [Op.run, Configuration.haltIfVSRConfigInvalid, Op.stored]
    cases env.validateVirtualServerRoute vsrNew with
    | some err => exact ⟨rfl, rfl, rfl, rfl, rfl, rfl, rfl⟩
    | none => exact sameStores_rebuildHosts env ord _

/-- The weight path keeps a VirtualServer it rejects. -/
def Op.keepsRejected (env : Env) (ord : Order) (c : Configuration) (op : Op) (name : String) :
    Prop :=
  ∃ vsNew, op = .haltIfVSConfigInvalid vsNew ∧ env.validateVirtualServer vsNew ≠ none ∧
    (rebuildHosts env (op.stored env ord c) ord).2.1 ≠ [] ∧
    (virtualServer vsNew).keyWithKind = name

theorem hasName_run_iff {ord : Order} {op : Op} {name : String} :
    HasName (op.run env ord c).1 name ↔
      HasName (op.stored env ord c) name ∨ op.keepsRejected env ord c name := by
  obtain hsame | ⟨vsNew, rfl, hrejected, hchanges, hrun⟩ := op.sameStores_run env ord c
  · have hkeeps : op.keepsRejected env ord c name → HasName (op.run env ord c).1 name := by
      rintro ⟨vsNew, rfl, hrejected, hchanges, hname⟩
      have hrun : ((Op.haltIfVSConfigInvalid vsNew).run env ord c).1 = _ :=
        (haltIfVSConfigInvalid_eq env c ord vsNew).trans (if_pos ⟨hrejected, hchanges⟩)
      refine ⟨.virtualServer vsNew, ?_, hname⟩
      rw [hrun]
      simp [Stored]
    have hiff : HasName (op.run env ord c).1 name ↔ HasName (op.stored env ord c) name :=
      exists_congr fun x => and_congr_left' (hsame.stored_iff x)
    exact ⟨fun h => .inl (hiff.mp h), fun h => h.elim hiff.mpr hkeeps⟩
  · set s := (Op.haltIfVSConfigInvalid vsNew).stored env ord c with hs
    rw [hrun]
    constructor
    · rintro ⟨x, hx, hname⟩
      cases x with
      | virtualServer vs =>
        simp only [Stored, Store.get_put] at hx
        split at hx
        · cases hx
          exact .inr ⟨vsNew, rfl, hrejected, hchanges, hname⟩
        · exact .inl ⟨.virtualServer vs, hx, hname⟩
      | ingress | virtualServerRoute | transportServer =>
        refine .inl ⟨_, ?_, hname⟩
        exact hx
    · rintro (⟨x, hx, hname⟩ | ⟨vsNew', heq, -, -, hname⟩)
      · cases x with
        | virtualServer vs =>
          by_cases hkey : objectKey vsNew = objectKey vs
          · refine ⟨.virtualServer vsNew, by simp [Stored], ?_⟩
            rw [← hname, keyWithKind_inj]
            exact ⟨rfl, hkey⟩
          · refine ⟨.virtualServer vs, ?_, hname⟩
            simp only [Stored, Store.get_put, if_neg hkey]
            exact hx
        | ingress | virtualServerRoute | transportServer =>
          refine ⟨_, ?_, hname⟩
          exact hx
      · cases heq
        exact ⟨.virtualServer vsNew, by simp [Stored], hname⟩

end Stores

section Hosts

variable {env : Env} {s : Configuration} {ord : Order} {name : String} (hok : StoresOk env s)
include hok

/-- Every contender for hosts claims one: accepted Ingresses have rules. -/
theorem exists_host_of_claim {e : Resource × List String} (he : e ∈ hostClaims env s ord) :
    ∃ host, ClaimsHost env s host e.1.object := by
  obtain ⟨hstored, hhosts⟩ := claimsHost_of_mem he
  suffices hne : e.2 ≠ [] by
    obtain ⟨host, hhost⟩ := exists_mem_of_ne_nil _ hne
    exact ⟨host, (hhosts host).mp hhost⟩
  cases hostClaim_of_mem he with
  | @ingress ing hing =>
    have hrules := (env.ingress_rules ing (hok.ingresses ing hing)).1
    simpa using hrules
  | virtualServer | transportServer => exact cons_ne_nil _ _

variable {r : Resource}

theorem claimsHost_of_newResource (hr : (newResources env s ord)[name]? = some r) :
    ∃ host, ClaimsHost env s host r.object := by
  obtain ⟨r₀, hr₀, rfl⟩ := get_newResources.mp hr
  obtain ⟨-, e, he, hcore⟩ := build_resource hok.ingresses hr₀
  rw [object_activate, object_of_bare hcore]
  exact exists_host_of_claim hok he

theorem claimsHost_of_warnedResource (hr : (warnedResources env s ord)[name]? = some r) :
    ∃ host, ClaimsHost env s host r.object := by
  obtain ⟨r', hr', hbare⟩ := (sameUpToWarnings_addWarnings s _ _ _).get hr
  rw [object_of_bare hbare]
  exact claimsHost_of_newResource hok hr'

theorem newResource_of_claimsHost {host : String} {x : ConfigurationObject}
    (h : ClaimsHost env s host x) :
    ∃ r, (newResources env s ord)[x.keyWithKind]? = some r ∧ r.object = x := by
  obtain ⟨e, he, rfl, -⟩ := exists_claim env s ord h
  obtain ⟨r, hr, hcore, -⟩ := build_contender hok.ingresses he
  rw [getKeyWithKind_eq] at hr
  exact ⟨_, get_newResources.mpr ⟨r, hr, rfl⟩, (object_activate _ r).trans (object_of_bare hcore)⟩

theorem exists_warnedResource_iff : (∃ r, (warnedResources env s ord)[name]? = some r) ↔
      ∃ host x, ClaimsHost env s host x ∧ x.keyWithKind = name := by
  constructor
  · rintro ⟨r, hr⟩
    obtain ⟨host, hclaims⟩ := claimsHost_of_warnedResource hok hr
    refine ⟨host, r.object, hclaims, ?_⟩
    rw [← getKeyWithKind_eq, name_of_get_warnedResources hok.ingresses hr]
  rintro ⟨host, x, hclaims, rfl⟩
  obtain ⟨r, hr, -⟩ := newResource_of_claimsHost hok hclaims
  obtain ⟨r', hr', -⟩ := (sameUpToWarnings_addWarnings s _ _ _).symm.get hr
  exact ⟨r', hr'⟩

theorem exists_warnedResource_of_newHosts {host : String}
    (hr : (newHosts env s ord)[host]? = some r) :
    ∃ r', (warnedResources env s ord)[r.getKeyWithKind]? = some r' :=
  (exists_warnedResource_iff hok).mpr
    ⟨host, r.object, claimsHost_newHosts hok.ingresses hr, (getKeyWithKind_eq r).symm⟩

/-- A change of the hosts shows the resource that was built or, for a name that nothing was built
for, the old one. -/
theorem latest_or_old_of_logged {op : Operation}
    (h : (op, r) ∈ logged (rebuildHosts env s ord).2.1) :
    (warnedResources env s ord)[r.getKeyWithKind]? = some r ∨
      (warnedResources env s ord)[r.getKeyWithKind]? = none ∧
        ∃ host : String, s.hosts[host]? = some r := by
  obtain ⟨change, hchange, heq⟩ := mem_map.mp h
  rw [Prod.mk.injEq] at heq
  obtain ⟨change', hchange', rfl⟩ := mem_map.mp hchange
  cases hlatest : (warnedResources env s ord)[change'.resource.getKeyWithKind]? with
  | some r' =>
    simp only [hlatest] at heq
    obtain ⟨-, rfl⟩ := heq
    left
    rw [name_of_get_warnedResources hok.ingresses hlatest, hlatest]
  | none =>
    simp only [hlatest] at heq
    obtain ⟨-, rfl⟩ := heq
    refine .inr ⟨hlatest, ?_⟩
    obtain ⟨-, hold⟩ | ⟨-, host, hnew⟩ := resource_of_mem_tableLog hchange'
    · exact hold
    · obtain ⟨r', hr'⟩ := exists_warnedResource_of_newHosts hok hnew
      rw [hlatest] at hr'
      cases hr'

/-- A held name that nothing was built for is deleted with its old resource. -/
theorem exists_logged_delete (hwf : HostsWf s.hosts) (hname : name ∈ hostNames s)
    (hnone : (warnedResources env s ord)[name]? = none) :
    ∃ (r : Resource) (host : String), (Operation.delete, r) ∈ logged (rebuildHosts env s ord).2.1 ∧
      r.getKeyWithKind = name ∧ s.hosts[host]? = some r := by
  have hnew : HostsWf (newHosts env s ord) := hostsWf_newHosts hok.ingresses
  have hdetects := detects_hosts hwf hnew
  have hgone : name ∉ names getKeyWithKind (newHosts env s ord) := by
    rw [mem_names]
    rintro ⟨host, r, hr, rfl⟩
    obtain ⟨r', hr'⟩ := exists_warnedResource_of_newHosts hok hr
    rw [hnone] at hr'
    cases hr'
  obtain ⟨change, hchange, hop, rfl⟩ := (exists_delete_tableLog hdetects).mpr ⟨hname, hgone⟩
  have hold : ∃ host : String, s.hosts[host]? = some change.resource := by
    obtain ⟨-, hold⟩ | ⟨hupdate, -⟩ := resource_of_mem_tableLog hchange
    · exact hold
    · rw [hop] at hupdate
      cases hupdate
  obtain ⟨host, hhost⟩ := hold
  refine ⟨change.resource, host, ?_, rfl, hhost⟩
  refine mem_map.mpr ⟨change, mem_map.mpr ⟨change, hchange, ?_⟩, by rw [hop]⟩
  rw [hnone]

omit hok

end Hosts

variable {place : ListenerHostKey} {ts : TransportServer} {tsc : TransportServerConfiguration}

section Listeners

variable {s : Configuration} {ord : Order}

/-- The TransportServer is the oldest of those that ask for the place; of equally old ones the one
visited last. -/
def HoldsPlace (s : Configuration) (ord : Order) (ts : TransportServer)
    (place : ListenerHostKey) : Prop :=
  ∃ tsc, Champion.champion listenerContest.rank
    (claimants place (listenerClaims s ord)) = some tsc ∧ tsc.transportServer = ts

theorem get_newListenerHosts : (newListenerHosts s ord)[place]? = some tsc ↔
      ∃ key, (buildListenerHostsAndTSConfigurations s ord).listenerHosts[place]? = some key ∧
        (buildListenerHostsAndTSConfigurations s ord).tsConfigs[key]? = some tsc := by
  rw [newListenerHosts, resolveListenerHosts, Table.get_filterMap, bind_eq_some_iff]

theorem holdsPlace_iff : HoldsPlace s ord ts place ↔
      ∃ tsc, (newListenerHosts s ord)[place]? = some tsc ∧ tsc.transportServer = ts := by
  refine ((settled_listeners s ord).champion_iff fun _ _ => transportServer_of_bare).trans ?_
  simp only [get_newListenerHosts]
  constructor
  · rintro ⟨key, tsc, hkey, htsc, hts⟩
    exact ⟨tsc, ⟨key, hkey, htsc⟩, hts⟩
  · rintro ⟨tsc, ⟨key, hkey, htsc⟩, hts⟩
    exact ⟨key, tsc, hkey, htsc, hts⟩

/-- What is filed for a TransportServer: it stands at its place unless it has been told that it
lost it. -/
theorem tsConfig_spec {key : String}
    (h : (buildListenerHostsAndTSConfigurations s ord).tsConfigs[key]? = some tsc) :
    key = objectKey tsc.transportServer ∧ Stored s (.transportServer tsc.transportServer) ∧
      tsc.transportServer.spec.listener.protocol ≠ tlsPassthroughListenerProtocol ∧
      ((findListener s tsc.transportServer = none ∧ tsc.listenerPort = 0) ∨
        ∃ l, findListener s tsc.transportServer = some l ∧
          ((newListenerHosts s ord)[
              (⟨l.name, tsc.transportServer.spec.host⟩ : ListenerHostKey)]? = some tsc ↔
            tsc.warnings = [])) := by
  have hsettled := settled_listeners s ord
  obtain ⟨hkey, e, he, hcore, hnotes⟩ := hsettled.entry_of_contender h
  have hname : objectKey tsc.transportServer = key := hkey
  subst hname
  obtain ⟨ts, hts, hclaim⟩ := claim_of_mem s ord he
  obtain ⟨heq, hregular, -⟩ := listenerClaim_spec s hclaim
  obtain rfl : tsc.transportServer = ts := (transportServer_of_bare hcore).trans heq
  refine ⟨rfl, hts, hregular, ?_⟩
  cases hl : findListener s tsc.transportServer with
  | none =>
    left
    simp only [listenerClaim, if_neg hregular, hl, some.injEq] at hclaim
    subst hclaim
    exact ⟨rfl, congrArg TransportServerConfiguration.listenerPort hcore⟩
  | some l =>
    refine .inr ⟨l, rfl, ?_⟩
    simp only [listenerClaim, if_neg hregular, hl, some.injEq] at hclaim
    subst hclaim
    have hwarnings : tsc.warnings.Perm
        ((lost (buildListenerHostsAndTSConfigurations s ord).listenerHosts
          (objectKey tsc.transportServer) [⟨l.name, tsc.transportServer.spec.host⟩]).map
            placeTaken) := hnotes
    rw [get_newListenerHosts]
    constructor
    · rintro ⟨key, hkey, hget⟩
      have hname : objectKey tsc.transportServer = key := (hsettled.entry_of_contender hget).1
      apply List.Perm.eq_nil
      simpa [lost, hkey, hname] using hwarnings
    · intro hnil
      rw [hnil] at hwarnings
      exact ⟨_, by simpa [lost] using hwarnings.nil_eq, h⟩

end Listeners

/-- Validation drops the listeners without a port. -/
def Env.ValidPorts (env : Env) : Prop :=
  ∀ gc, ∀ l ∈ (env.validateGlobalConfiguration gc).1.listeners, l.port ≠ 0

section Ports

variable {env : Env} {c : Configuration}

theorem Op.globalConfiguration_run (env : Env) (ord : Order) (c : Configuration) (op : Op) :
    (op.run env ord c).1.globalConfiguration = c.globalConfiguration ∨
      (op.run env ord c).1.globalConfiguration = none ∨
      ∃ gc, (op.run env ord c).1.globalConfiguration =
        some (env.validateGlobalConfiguration gc).1 := by
  have hafter : (op.run env ord c).1.globalConfiguration =
      (op.stored env ord c).globalConfiguration := by
    obtain hsame | ⟨vsNew, -, -, -, hrun⟩ := op.sameStores_run env ord c
    · exact hsame.globalConfiguration
    · rw [hrun]
      rfl
  rw [hafter]
  cases op with
  | api call =>
    cases hs : call.store env ord c with
    | none => exact .inl (by simp [Op.stored, hs])
    | some stored =>
      simp only [Op.stored, hs, getD_some]
      cases Call.stores_of_store hs with
      | setListeners gc => exact .inr (.inr ⟨gc, rfl⟩)
      | clearListeners => exact .inr (.inl rfl)
      | _ => exact .inl rfl
  | completeStartup => exact .inl rfl
  | haltIfVSConfigInvalid | haltIfVSRConfigInvalid =>
    left
    simp only [Op.stored]
    split <;> rfl

theorem Reachable.ports (hports : env.ValidPorts) (h : Reachable env c) :
    ∀ gc, c.globalConfiguration = some gc → ∀ l ∈ gc.listeners, l.port ≠ 0 := by
  induction h with
  | init => exact fun gc hgc => nomatch hgc
  | step _ ord op ih =>
    intro gc hgc
    obtain hsame | hnone | ⟨gc', hset⟩ := op.globalConfiguration_run env ord _
    · exact ih gc (hsame ▸ hgc)
    · rw [hnone] at hgc
      cases hgc
    · rw [hset] at hgc
      cases hgc
      exact hports gc'

/-- A holder of a place has a port and no warning. -/
theorem Reachable.holder_of_place (hports : env.ValidPorts) (h : Reachable env c)
    (htsc : c.listenerHosts[place]? = some tsc) : tsc.listenerPort ≠ 0 ∧ tsc.warnings = [] := by
  obtain ⟨o, hbuilt⟩ := h.builtListeners
  rw [hbuilt.listenerHosts] at htsc
  obtain ⟨l, hclaims, hbare, -⟩ := claimsPlace_newListenerHosts htsc
  obtain ⟨key, -, hget⟩ := get_newListenerHosts.mp htsc
  obtain ⟨-, -, -, ⟨hnone, -⟩ | ⟨l', hl', hplace⟩⟩ := tsConfig_spec hget
  · rw [hclaims.listener] at hnone
    cases hnone
  rw [hclaims.listener, some.injEq] at hl'
  subst hl'
  refine ⟨?_, hplace.mp (hclaims.place_eq ▸ htsc)⟩
  have hport : tsc.listenerPort = l.port :=
    congrArg TransportServerConfiguration.listenerPort hbare
  rw [hport]
  have hl := hclaims.listener
  unfold findListener at hl
  split at hl
  · cases hl
  · rename_i gc hgc
    exact h.ports hports gc hgc l (mem_of_find?_eq_some hl)

end Ports

/-! ## Changes of an operation -/

/-- The configuration that the rebuild from these stores makes for the resource. -/
def BuiltNow (env : Env) (s : Configuration) (ord : Order) (r : Resource) : Prop :=
  (warnedResources env s ord)[r.getKeyWithKind]? = some r ∨
    ∃ tsc, r = .transportServer tsc ∧ (buildListenerHostsAndTSConfigurations s ord).tsConfigs[
      objectKey tsc.transportServer]? = some tsc

/-- Every change of a resource that is still stored refers to what was built. -/
def RefersToLatest (env : Env) (ord : Order) (c : Configuration) (op : Op) : Prop :=
  ∀ change ∈ (op.run env ord c).2.changes,
    HasName (op.run env ord c).1 change.resource.getKeyWithKind →
      BuiltNow env (op.stored env ord c) ord change.resource

/-- Nobody who is still stored gives up a host or loses a listener. -/
structure KeepsClaims (env : Env) (ord : Order) (c : Configuration) (op : Op) : Prop where
  hosts : op.rebuildsHosts env ord c = true → ∀ (host : String) r x, c.hosts[host]? = some r →
    Stored (op.stored env ord c) x → x.keyWithKind = r.getKeyWithKind →
      ∃ host', ClaimsHost env (op.stored env ord c) host' x
  places : op.rebuildsListeners env ord c = true → ∀ (place : ListenerHostKey) tsc ts,
    c.listenerHosts[place]? = some tsc → Stored (op.stored env ord c) (.transportServer ts) →
      objectKey ts = objectKey tsc.transportServer →
        ∃ place', HoldsPlace (op.stored env ord c) ord ts place'
  weights : ∀ vsNew, op = .haltIfVSConfigInvalid vsNew → env.validateVirtualServer vsNew ≠ none →
    (virtualServer vsNew).keyWithKind ∉ hostNames c

section Operations

variable {env : Env} {ord : Order} {c : Configuration} {op : Op}

/-- The changes of an operation are logged by its rebuilds. -/
theorem mem_log_run {entry : Operation × Resource} : entry ∈ (op.run env ord c).2.log ↔
    (op.rebuildsListeners env ord c = true ∧
        entry ∈ logged (rebuildListenerHosts (op.stored env ord c) ord).2.1) ∨
      op.rebuildsHosts env ord c = true ∧
        entry ∈ logged (rebuildHosts env (op.stored env ord c) ord).2.1 := by
  rw [(op.rebuilds_run env ord c).log_eq, mem_append]
  split_ifs with hlisteners hhosts hhosts <;> simp [hlisteners, hhosts]

variable {s : Configuration}

/-- Passthrough servers are accepted with the passthrough protocol. -/
theorem protocol_of_claimsHost (hok : StoresOk env s) {host : String}
    (h : ClaimsHost env s host (.transportServer ts)) :
    ts.spec.listener.protocol = tlsPassthroughListenerProtocol := by
  obtain ⟨hstored, -, hpass, -⟩ := h
  have hlistener := env.transportServer_listener _ (hok.transportServers _ hstored)
  simpa [isTLSPassthrough, hlistener] using hpass

theorem transportServer_of_hasName (h : HasName s (transportServer tsc).getKeyWithKind) :
    ∃ ts, Stored s (.transportServer ts) ∧ objectKey ts = objectKey tsc.transportServer := by
  obtain ⟨x, hx, hname⟩ := h
  rw [Resource.getKeyWithKind_eq] at hname
  obtain ⟨hkind, hkey⟩ := keyWithKind_inj.mp hname
  cases x with
  | transportServer ts => exact ⟨ts, hx, hkey⟩
  | ingress | virtualServer | virtualServerRoute =>
    simp [ConfigurationObject.kind, Resource.object, ingressKind, virtualServerKind,
      virtualServerRouteKind, transportServerKind] at hkind

/-- Operations on the listeners leave what they stored. -/
theorem hasName_run_iff_of_listeners (h : op.rebuildsListeners env ord c = true) {name : String} :
    HasName (op.run env ord c).1 name ↔ HasName (op.stored env ord c) name := by
  rw [hasName_run_iff, or_iff_left]
  rintro ⟨vsNew, rfl, -⟩
  cases h

theorem mem_listenerNames_of_holdsPlace (h : HoldsPlace s ord ts place)
    (hkey : objectKey ts = objectKey tsc.transportServer) :
    (transportServer tsc).getKeyWithKind ∈
      names getKeyWithKind (listenerResources (newListenerHosts s ord)) := by
  obtain ⟨tsc', htsc', rfl⟩ := holdsPlace_iff.mp h
  exact mem_names.mpr ⟨place, .transportServer tsc', get_listenerResources.mpr ⟨tsc', htsc', rfl⟩,
    getKeyWithKind_transportServer_inj.mpr hkey⟩

theorem KeepsClaims.refersToLatest (hreach : Reachable env c) (h : KeepsClaims env ord c op) :
    RefersToLatest env ord c op := by
  have hok := hreach.tablesOk.stores.stored ord op
  obtain ⟨hhosts, hlisteners⟩ := op.tables_stored env ord c
  intro change hchange hnamed
  obtain ⟨hrebuilt, hlogged⟩ | ⟨hrebuilt, hlogged⟩ := mem_log_run.mp (mem_map_of_mem hchange)
  · right
    rw [rebuildListenerHosts_changes] at hlogged
    obtain ⟨change', hchange', heq⟩ := mem_map.mp hlogged
    obtain ⟨-, hresource⟩ := Prod.mk.injEq .. ▸ heq
    rw [← hresource] at hnamed ⊢
    obtain ⟨hdelete, place, hold⟩ | ⟨-, place, hnew⟩ := resource_of_mem_tableLog hchange'
    · -- a TransportServer that is still stored keeps a place, so nothing deletes it
      exfalso
      obtain ⟨tsc, htsc, hr⟩ := get_listenerResources.mp hold
      have hdetects := @detects_listeners _ (newListenerHosts (op.stored env ord c) ord)
        (hlisteners ▸ hreach.tablesOk.listeners.wf)
      have hgone := ((exists_delete_tableLog hdetects).mp ⟨change', hchange', hdelete, rfl⟩).2
      rw [hr] at hnamed hgone
      obtain ⟨ts, hts, hkey⟩ := transportServer_of_hasName
        ((hasName_run_iff_of_listeners hrebuilt).mp hnamed)
      obtain ⟨place', hplace'⟩ := h.places hrebuilt place tsc ts (hlisteners ▸ htsc) hts hkey
      exact hgone (mem_listenerNames_of_holdsPlace hplace' hkey)
    · obtain ⟨tsc, htsc, hr⟩ := get_listenerResources.mp hnew
      obtain ⟨key, -, hget⟩ := get_newListenerHosts.mp htsc
      exact ⟨tsc, hr, (tsConfig_spec hget).1 ▸ hget⟩
  · obtain hlatest | ⟨hnone, host, hold⟩ := latest_or_old_of_logged hok hlogged
    · exact .inl hlatest
    exfalso
    rw [hhosts] at hold
    obtain ⟨x, hx, hname⟩ | ⟨vsNew, rfl, hrejected, -, hname⟩ := hasName_run_iff.mp hnamed
    · obtain ⟨host', hclaims⟩ := h.hosts hrebuilt host change.resource x hold hx hname
      obtain ⟨r, hr⟩ : ∃ r, (warnedResources env (op.stored env ord c) ord)[
          change.resource.getKeyWithKind]? = some r :=
        (exists_warnedResource_iff hok).mpr ⟨host', x, hclaims, hname⟩
      rw [hnone] at hr
      cases hr
    · exact h.weights vsNew rfl hrejected (mem_names.mpr ⟨host, change.resource, hold, hname.symm⟩)

/-- A deleted host whose name is still stored, though nothing was built for it, shows what was
there before. -/
theorem RefersToLatest.built_of_host (hreach : Reachable env c) (h : RefersToLatest env ord c op)
    (hrebuilt : op.rebuildsHosts env ord c = true) {name : String} (hname : name ∈ hostNames c)
    (hnamed : HasName (op.run env ord c).1 name) :
    ∃ r, (warnedResources env (op.stored env ord c) ord)[name]? = some r := by
  have hok := hreach.tablesOk.stores.stored ord op
  obtain ⟨hhosts, -⟩ := op.tables_stored env ord c
  by_contra hbuilt
  have hnone : (warnedResources env (op.stored env ord c) ord)[name]? = none := by
    rw [eq_none_iff_forall_ne_some]
    exact fun r hr => hbuilt ⟨r, hr⟩
  obtain ⟨r, host, hlogged, rfl, hold⟩ := exists_logged_delete (s := op.stored env ord c) hok
    (hhosts ▸ hreach.tablesOk.hosts.wf) (by rw [hostNames, hhosts]; exact hname) hnone
  obtain ⟨change, hchange, hentry⟩ := mem_map.mp (mem_log_run.mpr (.inr ⟨hrebuilt, hlogged⟩))
  have hresource : change.resource = r := congrArg Prod.snd hentry
  obtain hlatest | ⟨tsc, hr, hget⟩ := h change hchange (hresource ▸ hnamed)
  · rw [hresource, hnone] at hlatest
    cases hlatest
  · -- the old resource is a passthrough server, what the listeners file is not
    obtain ⟨s, o, hs, hbefore⟩ := hreach.rebuilt.hosts
    rw [hhosts, hbefore, ← hresource, hr] at hold
    have hpass := protocol_of_claimsHost hs (claimsHost_rebuildHosts hs.ingresses hold)
    exact (tsConfig_spec hget).2.2.1 hpass

/-- A rejected VirtualServer is not there while the weight path rebuilds. -/
theorem not_hasName_of_rejected {vsNew : VirtualServer}
    (h : env.validateVirtualServer vsNew ≠ none) :
    ¬ HasName ((Op.haltIfVSConfigInvalid vsNew).stored env ord c)
      (virtualServer vsNew).keyWithKind := by
  rintro ⟨x, hx, hname⟩
  obtain ⟨err, hinvalid⟩ := ne_none_iff_exists'.mp h
  obtain ⟨hkind, hkey⟩ := keyWithKind_inj.mp hname
  cases x with
  | virtualServer vs =>
    have hkey' : objectKey vsNew = objectKey vs := hkey.symm
    simp [Stored, Op.stored, hinvalid, hkey'] at hx
  | ingress | virtualServerRoute | transportServer =>
    simp [ConfigurationObject.kind, ingressKind, virtualServerKind, virtualServerRouteKind,
      transportServerKind] at hkind

theorem RefersToLatest.keepsClaims (hports : env.ValidPorts) (hreach : Reachable env c)
    (h : RefersToLatest env ord c op) : KeepsClaims env ord c op where
  hosts hrebuilt host r x hr hx hname := by
    have hok := hreach.tablesOk.stores.stored ord op
    have hnamed : HasName (op.run env ord c).1 r.getKeyWithKind :=
      hasName_run_iff.mpr (.inl ⟨x, hx, hname⟩)
    obtain ⟨host', x', hclaims, hname'⟩ := (exists_warnedResource_iff hok).mp
      (h.built_of_host hreach hrebuilt (mem_names.mpr ⟨host, r, hr, rfl⟩) hnamed)
    have hsame : x' = x := hclaims.stored.eq_of_name hx (hname'.trans hname.symm)
    exact ⟨host', hsame ▸ hclaims⟩
  places hrebuilt place tsc ts htsc hts hkey := by
    have hok := hreach.tablesOk.stores.stored ord op
    obtain ⟨-, hlisteners⟩ := op.tables_stored env ord c
    by_contra hlost
    have hgone : (transportServer tsc).getKeyWithKind ∉ names getKeyWithKind
          (listenerResources (newListenerHosts (op.stored env ord c) ord)) := by
      intro hin
      obtain ⟨place', r, hr, hname⟩ := mem_names.mp hin
      obtain ⟨tsc', htsc', rfl⟩ := get_listenerResources.mp hr
      obtain ⟨l, hclaims, -⟩ := claimsPlace_newListenerHosts htsc'
      have hstored : Stored (op.stored env ord c) (.transportServer tsc'.transportServer) :=
        hclaims.stored
      have hsame : transportServer tsc'.transportServer = .transportServer ts :=
        hstored.eq_of_name hts (keyWithKind_inj.mpr
          ⟨rfl, (getKeyWithKind_transportServer_inj.mp hname).trans hkey.symm⟩)
      cases hsame
      exact hlost ⟨place', holdsPlace_iff.mpr ⟨tsc', htsc', rfl⟩⟩
    have hdetects := @detects_listeners _ (newListenerHosts (op.stored env ord c) ord)
      (hlisteners ▸ hreach.tablesOk.listeners.wf)
    have hheld : (transportServer tsc).getKeyWithKind ∈
        names getKeyWithKind (listenerResources (op.stored env ord c).listenerHosts) :=
      mem_names.mpr ⟨place, _, get_listenerResources.mpr ⟨tsc, hlisteners ▸ htsc, rfl⟩, rfl⟩
    obtain ⟨entry, hentry, hdelete, hname⟩ := (exists_delete_tableLog hdetects).mpr ⟨hheld, hgone⟩
    have hold : ∃ (place' : ListenerHostKey) (tsc' : TransportServerConfiguration),
        c.listenerHosts[place']? = some tsc' ∧ entry.resource = .transportServer tsc' := by
      obtain ⟨-, place', hold⟩ | ⟨hupdate, -⟩ := resource_of_mem_tableLog hentry
      · obtain ⟨tsc', htsc', hr⟩ := get_listenerResources.mp hold
        exact ⟨place', tsc', hlisteners ▸ htsc', hr⟩
      · rw [hdelete] at hupdate
        cases hupdate
    obtain ⟨place', tsc', htsc', hr⟩ := hold
    have hlogged : (entry.op, entry.resource) ∈
        logged (rebuildListenerHosts (op.stored env ord c) ord).2.1 := by
      rw [rebuildListenerHosts_changes]
      exact mem_map_of_mem hentry
    obtain ⟨change, hchange, heq⟩ := mem_map.mp (mem_log_run.mpr (.inl ⟨hrebuilt, hlogged⟩))
    have hresource : change.resource = entry.resource := congrArg Prod.snd heq
    have hnamed : HasName (op.run env ord c).1 change.resource.getKeyWithKind := by
      rw [hresource, hname, hasName_run_iff_of_listeners hrebuilt, getKeyWithKind_eq]
      exact ⟨.transportServer ts, hts, keyWithKind_inj.mpr ⟨rfl, hkey⟩⟩
    rw [hr] at hresource hname
    obtain hlatest | ⟨tsc'', hr'', hget⟩ := h change hchange hnamed
    · rw [hresource] at hlatest
      obtain ⟨host, hclaims⟩ := claimsHost_of_warnedResource hok hlatest
      exact (hreach.tablesOk.listeners.regular place' tsc' htsc').2
        (protocol_of_claimsHost hok hclaims)
    · rw [hresource, Resource.transportServer.injEq] at hr''
      subst hr''
      obtain ⟨hport, hwarnings⟩ := hreach.holder_of_place hports htsc'
      obtain ⟨-, -, -, ⟨-, hzero⟩ | ⟨l, -, hplace⟩⟩ := tsConfig_spec hget
      · exact hport hzero
      · apply hgone
        rw [← hname]
        exact mem_names.mpr ⟨_, _, get_listenerResources.mpr ⟨tsc', hplace.mpr hwarnings, rfl⟩, rfl⟩
  weights vsNew hop hrejected hname := by
    subst hop
    have hok := hreach.tablesOk.stores.stored ord (.haltIfVSConfigInvalid vsNew)
    obtain ⟨hhosts, -⟩ := (Op.haltIfVSConfigInvalid vsNew).tables_stored env ord c
    have hnone : (warnedResources env ((Op.haltIfVSConfigInvalid vsNew).stored env ord c) ord)[
        (virtualServer vsNew).keyWithKind]? = none := by
      rw [eq_none_iff_forall_ne_some]
      intro r hr
      obtain ⟨host, x, hclaims, hkey⟩ := (exists_warnedResource_iff hok).mp ⟨r, hr⟩
      exact not_hasName_of_rejected hrejected ⟨x, hclaims.stored, hkey⟩
    obtain ⟨r, host, hlogged, -⟩ := exists_logged_delete hok
      (hhosts ▸ hreach.tablesOk.hosts.wf) (by rw [hostNames, hhosts]; exact hname) hnone
    have hchanges : (rebuildHosts env ((Op.haltIfVSConfigInvalid vsNew).stored env ord c)
        ord).2.1 ≠ [] := by
      intro hnil
      rw [hnil] at hlogged
      cases hlogged
    obtain ⟨r', hr'⟩ := h.built_of_host hreach rfl hname
      (hasName_run_iff.mpr (.inr ⟨vsNew, rfl, hrejected, hchanges, rfl⟩))
    rw [hnone] at hr'
    cases hr'

/-- The changes of an operation refer to the configurations it built, unless an object that is
still stored has given up its hosts, lost its listener or was rejected on the weight path. -/
theorem changes_refer_to_latest_iff (hports : env.ValidPorts) (hreach : Reachable env c)
    (ord : Order) (op : Op) : RefersToLatest env ord c op ↔ KeepsClaims env ord c op :=
  ⟨fun h => h.keepsClaims hports hreach, fun h => h.refersToLatest hreach⟩

end Operations

/-! ## A TransportServer that loses its listener -/

def Env.checkingPorts (passthrough : Bool) : Env :=
  { Env.permissive passthrough with
    validateGlobalConfiguration := fun gc =>
      ({ gc with listeners := gc.listeners.filter (·.port ≠ 0) }, none) }

theorem validPorts_checkingPorts (passthrough : Bool) :
    (Env.checkingPorts passthrough).ValidPorts := by
  intro gc l hl
  simpa using (mem_filter.mp hl).2

def withPassthroughApp : Configuration :=
  Op.runs (Env.checkingPorts true) {} [
    (.asGiven, .api (.addOrUpdateTransportServer secureApp)), (.asGiven, .completeStartup)]

theorem changes_refer_to_latest_iff_renamed :
    RefersToLatest (Env.checkingPorts true) .asGiven withPassthroughApp
      (.api (.addOrUpdateTransportServer secureAppRenamed)) := by
  have hreach : Reachable (Env.checkingPorts true) withPassthroughApp := Reachable.init.runs _
  refine (changes_refer_to_latest_iff (validPorts_checkingPorts true) hreach .asGiven _).mpr
    ⟨?_, ?_, ?_⟩
  · intro _ host r x _ hx _
    cases x with
    | transportServer ts =>
      have hget : (Store.empty.put secureApp |>.put secureAppRenamed).get (objectKey ts) =
        some ts := hx
      have hkeys : objectKey secureApp = objectKey secureAppRenamed := rfl
      simp only [Store.get_put, hkeys, Store.get_empty] at hget
      split at hget
      · cases hget
        exact ⟨"secure.example.com", hx, rfl, rfl, rfl⟩
      · cases hget
    | _ => cases hx
  · intro _ place tsc ts htsc
    have hempty : withPassthroughApp.listenerHosts = ∅ := by
      rw [← Std.ExtTreeMap.isEmpty_iff]
      decide +kernel
    rw [hempty] at htsc
    simp at htsc
  · intro vsNew hop
    cases hop

def youngTcpApp : TransportServer where
  objectMeta := {
    nspace := .of "default"
    name := .of "young-app"
    creationTimestamp := 2 }
  spec := { secureApp.spec with listener := ⟨"tcp-5000", "TCP"⟩, host := "" }

def oldTcpApp : TransportServer where
  objectMeta := {
    nspace := .of "default"
    name := .of "old-app"
    creationTimestamp := 1 }
  spec := youngTcpApp.spec

def withYoungTcpApp : Configuration :=
  Op.runs (Env.checkingPorts false) {} [
    (.asGiven, .api (.addOrUpdateGlobalConfiguration tcpListeners)),
    (.asGiven, .api (.addOrUpdateTransportServer youngTcpApp)),
    (.asGiven, .completeStartup)]

/-- The old server takes the listener. The delete of the young one does not say so, though the
configuration that was built does. -/
theorem lost_listener_is_not_reported :
    Reachable (Env.checkingPorts false) withYoungTcpApp ∧
      ¬ RefersToLatest (Env.checkingPorts false) .asGiven withYoungTcpApp
        (.api (.addOrUpdateTransportServer oldTcpApp)) := by
  refine ⟨Reachable.init.runs _, fun h => ?_⟩
  let stale : TransportServerConfiguration :=
    { transportServer := youngTcpApp, listenerPort := 5000 }
  have hchange : ⟨.delete, .transportServer stale, ""⟩ ∈
      ((Op.api (.addOrUpdateTransportServer oldTcpApp)).run (Env.checkingPorts false) .asGiven
        withYoungTcpApp).2.changes := by
    decide +kernel
  have hnamed : HasName ((Op.api (.addOrUpdateTransportServer oldTcpApp)).run
      (Env.checkingPorts false) .asGiven withYoungTcpApp).1
        (transportServer stale).getKeyWithKind :=
    ⟨.transportServer youngTcpApp, by unfold Stored; decide +kernel, by decide +kernel⟩
  obtain hlatest | ⟨tsc, hr, hget⟩ := h _ hchange hnamed
  · revert hlatest
    decide +kernel
  · cases hr
    revert hget
    decide +kernel

/-- The oldest TransportServer that claims a listener and a host holds them, at the address of the
listener. -/
theorem place_goes_to_oldest_claimant {env : Env} {c : Configuration} (h : Reachable env c)
    (place : ListenerHostKey) :
    (∀ tsc, c.listenerHosts[place]? = some tsc → ∃ l, ClaimsPlace c tsc.transportServer l place ∧
      (tsc.listenerPort, tsc.ipv4, tsc.ipv6) = (l.port, l.ipv4, l.ipv6) ∧
      ∀ ts l', ClaimsPlace c ts l' place →
        tsc.transportServer.objectMeta.age ≤ ts.objectMeta.age) ∧
    (c.listenerHosts[place]? = none → ∀ ts l, ¬ ClaimsPlace c ts l place) := by
  obtain ⟨o, hbuilt⟩ := h.builtListeners
  rw [hbuilt.listenerHosts]
  refine ⟨fun tsc htsc => ?_, fun hnone ts l hts => ?_⟩
  · obtain ⟨l, hclaims, hbare, hleast⟩ := claimsPlace_newListenerHosts htsc
    refine ⟨l, hclaims, ?_, hleast⟩
    exact congrArg (fun t : TransportServerConfiguration => (t.listenerPort, t.ipv4, t.ipv6)) hbare
  · obtain ⟨e, he⟩ : ∃ e, listenerClaim c ts = some e := by
      simp [listenerClaim, hts.regular, hts.listener]
    have hin : place ∈ e.2 := by
      simp only [listenerClaim, hts.regular, hts.listener, if_false, some.injEq] at he
      simp [← he, hts.place_eq]
    have hclaimed : e.1 ∈ claimants place (listenerClaims c o) :=
      mem_map_of_mem (mem_filter.mpr ⟨mem_of_claim c o hts.stored he, by simpa using hin⟩)
    cases hw : Champion.champion listenerContest.rank (claimants place (listenerClaims c o)) with
    | none => simp_all [Champion.champion_eq_none]
    | some w =>
      obtain ⟨tsc, htsc, -⟩ := holdsPlace_iff.mp ⟨w, hw, rfl⟩
      cases hnone.symm.trans htsc

/-- The old server holds the place that the young one claims as well. -/
theorem place_goes_to_oldest_claimant_old :
    let c := Op.runs (.checkingPorts false) withYoungTcpApp
      [(.asGiven, .api (.addOrUpdateTransportServer oldTcpApp))]
    (∃ l, ClaimsPlace c oldTcpApp l ⟨"tcp-5000", ""⟩) ∧
      (∃ l, ClaimsPlace c youngTcpApp l ⟨"tcp-5000", ""⟩) ∧
      oldTcpApp.objectMeta.age ≤ youngTcpApp.objectMeta.age ∧
      ∀ ts l, ¬ ClaimsPlace c ts l ⟨"tcp-5001", ""⟩ := by
  intro c
  have hreach : Reachable (.checkingPorts false) c := .runs (.runs .init _) _
  obtain ⟨l, hl, hname⟩ : ∃ l, findListener c youngTcpApp = some l ∧ l.name = "tcp-5000" := by
    refine Option.map_eq_some_iff.mp ?_
    decide +kernel
  have hrival : ClaimsPlace c youngTcpApp l ⟨"tcp-5000", ""⟩ :=
    ⟨by decide +kernel, by decide +kernel, hl, by rw [hname]; rfl⟩
  obtain ⟨l', hclaims, -, holdest⟩ := (place_goes_to_oldest_claimant hreach ⟨"tcp-5000", ""⟩).1
    { transportServer := oldTcpApp, listenerPort := 5000 } (by decide +kernel)
  exact ⟨⟨l', hclaims⟩, ⟨l, hrival⟩, holdest _ _ hrival,
    (place_goes_to_oldest_claimant hreach ⟨"tcp-5001", ""⟩).2 (by decide +kernel)⟩

end IngressController
