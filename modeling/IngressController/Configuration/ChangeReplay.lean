import IngressController.Configuration.Steps

/-! # Replaying the changes of a call

The controller applies the changes of a call in order: a delete takes the config of
a resource away, an update writes it. Replayed on the names of the active resources,
the changes of either rebuild net out. Together they fail in one case: a passthrough
TransportServer that gives up its host for a listener is updated by the listener
changes and then deleted by the host changes.
-/

namespace IngressController

open IngressController.Configuration ChangeLog Resource Table Finset

structure ResourceFilter where
  ingresses : Bool
  virtualServers : Bool
  transportServers : Bool

def ResourceFilter.keeps (filter : ResourceFilter) : Resource → Bool
  | .ingress _ => filter.ingresses
  | .virtualServer _ => filter.virtualServers
  | .transportServer _ => filter.transportServers

namespace Configuration

/-- A TransportServer of a listener replaces a resource of the same name. -/
def getResourcesWithFilter (filter : ResourceFilter) (c : Configuration) : List Resource :=
  let ofHosts : GoMap Resource :=
    file getKeyWithKind ∅ ((values c.hosts).filter filter.keeps)
  values <| if filter.transportServers then
      file getKeyWithKind ofHosts
        (values (listenerResources c.listenerHosts))
    else ofHosts

variable (c : Configuration)

def getResources : List Resource :=
  getResourcesWithFilter ⟨true, true, true⟩ c

def activeNames : Finset String :=
  ((getResources c).map getKeyWithKind).toFinset

abbrev hostNames (c : Configuration) : Finset String := names getKeyWithKind c.hosts

abbrev listenerNames (c : Configuration) : Finset String :=
  names getKeyWithKind (listenerResources c.listenerHosts)

theorem activeNames_eq : activeNames c = hostNames c ∪ listenerNames c := by
  have hempty : Filed getKeyWithKind (∅ : GoMap Resource) := by simp [Filed]
  have hfiled := (hempty.file (values c.hosts)).file (values (listenerResources c.listenerHosts))
  have hkeep : (values c.hosts).filter (ResourceFilter.keeps ⟨true, true, true⟩) =
      values c.hosts := by
    apply List.filter_eq_self.mpr
    intro r _
    cases r <;> rfl
  ext name
  have hget : name ∈ hostNames c ∪ listenerNames c ↔ ∃ r, (file getKeyWithKind
      (file getKeyWithKind (∅ : GoMap Resource) (values c.hosts))
      (values (listenerResources c.listenerHosts)))[name]? = some r := by
    simp [exists_get_file, hostNames, listenerNames, names, or_comm]
  rw [hget]
  simp only [activeNames, getResources, getResourcesWithFilter, hkeep, if_true,
    List.mem_toFinset, List.mem_map, mem_values]
  constructor
  · rintro ⟨r, ⟨k, hk⟩, rfl⟩
    exact ⟨r, hfiled k r hk ▸ hk⟩
  · rintro ⟨r, hr⟩
    exact ⟨r, ⟨name, hr⟩, hfiled name r hr⟩

end Configuration

/-! ## Replaying one rebuild -/

/-- What the controller has configs for after the changes. -/
abbrev replayChanges (active : Finset String) (changes : List ResourceChange) : Finset String :=
  replay getKeyWithKind active changes

theorem replayChanges_congr {active : Finset String} {changes changes' : List ResourceChange}
    (h : announced changes = announced changes') :
    replayChanges active changes = replayChanges active changes' :=
  replay_congr h

section Rebuilds

variable {env : Env} {c : Configuration} {ord : Order} {active : Finset String} {name : String}

theorem hostNames_rebuildHosts :
    hostNames (rebuildHosts env c ord).1 = names getKeyWithKind (newHosts env c ord) := by
  have hsame := sameUpToWarnings_rebuildHosts env c ord
  ext name
  simp only [mem_names]
  constructor <;> rintro ⟨h, r, hr, hname⟩
  · obtain ⟨r', hr', hbare⟩ := hsame.get hr
    exact ⟨h, r', hr', name_of_bare hbare ▸ hname⟩
  · obtain ⟨r', hr', hbare⟩ := hsame.symm.get hr
    exact ⟨h, r', hr', name_of_bare hbare ▸ hname⟩

theorem mem_replay_rebuildHosts (hstores : StoresOk env c) (hhosts : HostsWf c.hosts)
    (hactive : hostNames c ⊆ active) :
    name ∈ replayChanges active (rebuildHosts env c ord).2.1 ↔
      name ∈ hostNames (rebuildHosts env c ord).1 ∨ name ∈ active ∧ name ∉ hostNames c := by
  have hnew : HostsWf (newHosts env c ord) := hostsWf_newHosts hstores.ingresses
  have hdetects := detects_hosts hhosts hnew
  rw [hostNames_rebuildHosts, ← mem_replay_tableLog hdetects hactive,
    replayChanges_congr (announced_rebuildHosts env c ord hstores)]

theorem mem_replay_rebuildListenerHosts (hlisteners : ListenersWf c.listenerHosts)
    (hactive : listenerNames c ⊆ active) :
    name ∈ replayChanges active (rebuildListenerHosts c ord).2.1 ↔
      name ∈ listenerNames (rebuildListenerHosts c ord).1 ∨
        name ∈ active ∧ name ∉ listenerNames c := by
  rw [rebuildListenerHosts_changes c ord]
  exact mem_replay_tableLog (detects_listeners hlisteners) hactive

end Rebuilds

/-- The changes of two tables, squashed, are their net effect, whatever the tables. A resource that
keeps a place unchanged is spared if the tables show every resource with all its places, as those
of a reachable Configuration do. -/
theorem squashed_isNetEffect :
    (∀ old new : GoMap Resource,
      let detected := detectChangesInHosts old new
      let log := squashResourceChanges getKeyWithKind
        (createResourceChangesForHosts detected old new)
      IsNetEffect getKeyWithKind detected.updated detected.added old new log ∧
        (HostsWf old → HostsWf new → SparesKept getKeyWithKind detected.updated old new log)) ∧
    (∀ env c ord, Reachable env c →
      HostsWf c.hosts ∧ HostsWf (newHosts env c ord) ∧ ListenersWf c.listenerHosts) ∧
    ∀ old new : Table ListenerHostKey TransportServerConfiguration,
      let detected := detectChangesInListenerHosts old new
      let log := squashResourceChanges getKeyWithKind
        (createResourceChangesForListeners detected old new)
      IsNetEffect getKeyWithKind detected.updated detected.added (listenerResources old)
          (listenerResources new) log ∧
        (ListenersWf old → SparesKept getKeyWithKind detected.updated (listenerResources old)
          (listenerResources new) log) := by
  refine ⟨fun old new => ⟨isNetEffect_tableLog (fun _ => mem_removed) ?_, ?_⟩, fun _ _ _ h => ?_,
    fun old new => ⟨isNetEffect_tableLog (fun _ => mem_removed_listener) ?_, ?_⟩⟩
  · exact fun h o n ho hn hnot => getKeyWithKind_of_isEqual (isEqual_of_not_updated ho hn hnot).2
  · exact fun hold hnew => sparesKept_tableLog (detects_hosts hold hnew)
  · exact ⟨h.tablesOk.hosts.wf, hostsWf_newHosts h.tablesOk.stores.ingresses,
      h.tablesOk.listeners.wf⟩
  · exact fun p o n => name_of_not_updated_listener
  · exact fun hold => sparesKept_tableLog (detects_listeners hold)

/-! ## Replaying a call -/

section Calls

variable {env : Env} {c : Configuration} {ord : Order} {name : String}

theorem transportServer_of_name {r : Resource} {tsc : TransportServerConfiguration}
    (h : r.getKeyWithKind = (transportServer tsc).getKeyWithKind) :
    ∃ tsc', r = .transportServer tsc' ∧
      objectKey tsc'.transportServer = objectKey tsc.transportServer := by
  obtain ⟨hkind, hkey⟩ := getKeyWithKind_inj.mp h
  cases r with
  | transportServer tsc' => exact ⟨tsc', rfl, hkey⟩
  | ingress | virtualServer =>
    simp [kind, ingressKind, virtualServerKind, transportServerKind] at hkind

/-- A name with a host before and a listener after is a TransportServer's. -/
theorem exists_of_not_disjoint {c' : Configuration}
    (h : ¬ Disjoint (hostNames c) (listenerNames c')) :
    ∃ (host : String) (place : ListenerHostKey) (tsc tsc' : TransportServerConfiguration),
      c.hosts[host]? = some (.transportServer tsc) ∧ c'.listenerHosts[place]? = some tsc' ∧
        objectKey tsc.transportServer = objectKey tsc'.transportServer := by
  rw [not_disjoint_iff] at h
  obtain ⟨name, hhost, hlistener⟩ := h
  obtain ⟨host, r, hr, rfl⟩ := mem_names.mp hhost
  obtain ⟨place, r', hr', hname⟩ := mem_names.mp hlistener
  obtain ⟨tsc', htsc', rfl⟩ := get_listenerResources.mp hr'
  obtain ⟨tsc, rfl, hkey⟩ := transportServer_of_name hname.symm
  exact ⟨host, place, tsc, tsc', hr, htsc', hkey⟩

/-- After startup a TransportServer with a host is a stored one for passthrough. -/
theorem TablesOk.passthrough (h : TablesOk env c) (hstartup : c.startupComplete = true)
    {host : String} {tsc : TransportServerConfiguration}
    (htsc : c.hosts[host]? = some (.transportServer tsc)) :
    c.transportServers.get (objectKey tsc.transportServer) = some tsc.transportServer ∧
      tsc.transportServer.spec.listener.protocol = tlsPassthroughListenerProtocol := by
  obtain ⟨hstored, hpass⟩ := (h.hosts.passthrough host tsc htsc).2 hstartup
  have hlistener := env.transportServer_listener _ (h.stores.transportServers _ hstored)
  simp only [isTLSPassthrough, Bool.or_eq_true, decide_eq_true_eq, hlistener, or_self] at hpass
  exact ⟨hstored, hpass⟩

theorem TablesOk.disjoint (h : TablesOk env c) (hstartup : c.startupComplete = true) :
    Disjoint (hostNames c) (listenerNames c) := by
  by_contra hnot
  obtain ⟨host, place, tsc, tsc', htsc, htsc', hkey⟩ := exists_of_not_disjoint hnot
  obtain ⟨hstored, hpass⟩ := h.passthrough hstartup htsc
  obtain ⟨hstored', hregular⟩ := h.listeners.regular place tsc' htsc'
  have hsame : tsc.transportServer = tsc'.transportServer := by
    have hget : c.transportServers.get (objectKey tsc'.transportServer) =
        some tsc'.transportServer := hstored'
    rw [← hkey, hstored] at hget
    exact Option.some.inj hget
  exact hregular (hsame ▸ hpass)

theorem replay_rebuildHosts (hstores : StoresOk env c) (hhosts : HostsWf c.hosts)
    (hdisjoint : Disjoint (hostNames c) (listenerNames c)) :
    replayChanges (activeNames c) (rebuildHosts env c ord).2.1 =
      activeNames (rebuildHosts env c ord).1 := by
  rw [activeNames_eq, activeNames_eq]
  ext name
  rw [mem_replay_rebuildHosts hstores hhosts subset_union_left, mem_union,
    mem_union]
  have hnot (hin : name ∈ listenerNames c) := disjoint_right.mp hdisjoint hin
  have hsame : listenerNames (rebuildHosts env c ord).1 = listenerNames c := rfl
  rw [hsame]
  tauto

theorem replay_rebuildListenerHosts (hlisteners : ListenersWf c.listenerHosts)
    (hdisjoint : Disjoint (hostNames c) (listenerNames c)) :
    replayChanges (activeNames c) (rebuildListenerHosts c ord).2.1 =
      activeNames (rebuildListenerHosts c ord).1 := by
  rw [activeNames_eq, activeNames_eq]
  ext name
  rw [mem_replay_rebuildListenerHosts hlisteners subset_union_right, mem_union,
    mem_union]
  have hnot (hin : name ∈ hostNames c) := disjoint_left.mp hdisjoint hin
  have hsame : hostNames (rebuildListenerHosts c ord).1 = hostNames c := rfl
  rw [hsame]
  tauto

/-- One after the other they net out if nothing moves from a host to a listener: such a
TransportServer is deleted after its update. -/
theorem replay_rebuildBoth (hstores : StoresOk env c) (hhosts : HostsWf c.hosts)
    (hlisteners : ListenersWf c.listenerHosts)
    (hdisjoint : Disjoint (hostNames c) (listenerNames c))
    (hstartup : c.startupComplete = true)
    (hafter : Disjoint (hostNames (rebuildBoth env ord true c).1)
      (listenerNames (rebuildBoth env ord true c).1)) :
    replayChanges (activeNames c) (rebuildBoth env ord true c).2.changes =
        activeNames (rebuildBoth env ord true c).1 ↔
      Disjoint (hostNames c) (listenerNames (rebuildBoth env ord true c).1) := by
  have hboth : rebuildBoth env ord true c =
      let listeners := rebuildListenerHosts c ord
      let hosts := rebuildHosts env listeners.1 ord
      (hosts.1, ⟨listeners.2.1 ++ hosts.2.1, listeners.2.2 ++ hosts.2.2⟩) := by
    have hstartup' : (rebuildListenerHosts c ord).1.startupComplete = true := hstartup
    simp [rebuildBoth_true, rebuildHostsAfterStartup, hstartup']
  rw [hboth] at hafter ⊢
  simp only at hafter ⊢
  set listened := (rebuildListenerHosts c ord).1 with hlistened
  have hl : listenerNames (rebuildHosts env listened ord).1 = listenerNames listened := rfl
  have hh : hostNames listened = hostNames c := rfl
  rw [hl] at hafter ⊢
  have hfirst : replay getKeyWithKind (activeNames c) (rebuildListenerHosts c ord).2.1 =
      activeNames listened := replay_rebuildListenerHosts hlisteners hdisjoint
  rw [replayChanges, replay_append, hfirst, activeNames_eq listened,
    activeNames_eq (rebuildHosts env listened ord).1, hl]
  have hmem : ∀ name, name ∈ replayChanges (hostNames listened ∪ listenerNames listened)
      (rebuildHosts env listened ord).2.1 ↔ name ∈ hostNames (rebuildHosts env listened ord).1 ∨
        name ∈ listenerNames listened ∧ name ∉ hostNames c := by
    intro name
    rw [mem_replay_rebuildHosts (c := listened) (hstores.congr rfl rfl) hhosts
      subset_union_left, hh, mem_union]
    tauto
  constructor
  · intro heq
    rw [disjoint_left]
    intro name hhost hlistener
    have hin : name ∈ hostNames (rebuildHosts env listened ord).1 ∪ listenerNames listened :=
      mem_union_right _ hlistener
    rw [← heq, hmem] at hin
    rcases hin with hin | hin
    · exact disjoint_left.mp hafter hin hlistener
    · exact hin.2 hhost
  · intro hmove
    ext name
    have hnot (hin : name ∈ listenerNames listened) := disjoint_right.mp hmove hin
    rw [hmem, mem_union]
    tauto

/-- The changes of a call net out unless it moves a TransportServer from a host to a listener. -/
theorem replay_call (h : TablesOk env c) (hstartup : c.startupComplete = true) (ord : Order)
    (call : Call) :
    replayChanges (activeNames c) (call.run env ord c).2.changes =
        activeNames (call.run env ord c).1 ↔
      Disjoint (hostNames c) (listenerNames (call.run env ord c).1) := by
  have hdisjoint := h.disjoint hstartup
  have hafter := (h.run ord call).disjoint (by rw [call.run_startupComplete, hstartup])
  obtain ⟨hs, hrun⟩ | ⟨stored, hs, hrun⟩ := Call.run_eq env ord c call
  · rw [hrun]
    exact iff_of_true rfl hdisjoint
  have hstores := Call.stores_of_store hs
  have htables := hstores.sameTables
  have hok := hstores.storesOk h.stores
  have hnames : hostNames stored = hostNames c := by rw [hostNames, htables.hosts]
  have hlistened : listenerNames stored = listenerNames c := by
    rw [listenerNames, htables.listenerHosts]
  have hactive : activeNames c = activeNames stored := by
    rw [activeNames_eq, activeNames_eq, hnames, hlistened]
  have hwf : HostsWf stored.hosts := htables.hosts ▸ h.hosts.wf
  have hlwf : ListenersWf stored.listenerHosts := htables.listenerHosts ▸ h.listeners.wf
  have hstart : stored.startupComplete = true := htables.startupComplete.trans hstartup
  rw [← hnames, ← hlistened] at hdisjoint
  rw [hrun.1] at hafter ⊢
  rw [replayChanges_congr (announced_of_log hrun.2), hactive, ← hnames]
  unfold Call.rebuild at hafter ⊢
  by_cases hl : call.rebuildsListeners = true
  · rw [if_pos hl] at hafter ⊢
    by_cases hh : call.rebuildsHosts env = true
    · rw [hh] at hafter ⊢
      exact replay_rebuildBoth hok hwf hlwf hdisjoint hstart hafter
    -- without passthrough no TransportServer has a host
    rw [Bool.eq_false_iff.mpr hh, rebuildBoth_false]
    refine iff_of_true (replay_rebuildListenerHosts hlwf hdisjoint) ?_
    by_contra hnot
    obtain ⟨host, place, tsc, tsc', htsc, -, -⟩ := exists_of_not_disjoint hnot
    rw [htables.hosts] at htsc
    exact hh (call.rebuildsHosts_of_passthrough (h.hosts.passthrough host tsc htsc).1)
  · rw [if_neg hl, rebuildHostsAfterStartup, if_pos hstart]
    exact iff_of_true (replay_rebuildHosts hok hwf hdisjoint) hdisjoint

/-- The update of a TransportServer with a host to one that gets a listener: the new version is
accepted, asks for a listener of the GlobalConfiguration, and no older TransportServer claims that
listener and host. -/
structure MovesToListener (env : Env) (c : Configuration) (ts : TransportServer) : Prop where
  correctClass : env.hasCorrectIngressClass (.transportServer ts) = true
  valid : env.validateTransportServer ts = none
  hosted : ∃ (host : String) (tsc : TransportServerConfiguration),
    c.hosts[host]? = some (.transportServer tsc) ∧
      objectKey tsc.transportServer = objectKey ts
  wins : ∃ l place,
    ClaimsPlace { c with transportServers := c.transportServers.put ts } ts l place ∧
    ∀ ts' l', ClaimsPlace { c with transportServers := c.transportServers.put ts } ts' l' place →
      ¬ ts'.objectMeta.age < ts.objectMeta.age

/-- Only an update of the TransportServer itself moves it. -/
theorem movesToListener_of_not_disjoint (h : TablesOk env c) (hstartup : c.startupComplete = true)
    {call : Call} (hnot : ¬ Disjoint (hostNames c) (listenerNames (call.run env ord c).1)) :
    ∃ ts, call = .addOrUpdateTransportServer ts ∧ MovesToListener env c ts := by
  obtain ⟨host, place, tsc, tsc', htsc, htsc', hkey⟩ := exists_of_not_disjoint hnot
  obtain ⟨hbefore, hpass⟩ := h.passthrough hstartup htsc
  obtain ⟨hafter, hregular⟩ := (h.run ord call).listeners.regular place tsc' htsc'
  obtain ⟨hs, hrun⟩ | ⟨stored, hs, hrun⟩ := Call.run_eq env ord c call
  · rw [hrun] at hnot
    exact absurd (h.disjoint hstartup) hnot
  have hstores := Call.stores_of_store hs
  have hget : stored.transportServers.get (objectKey tsc.transportServer) =
      some tsc'.transportServer := by
    have hsame := (call.sameStores_rebuild env ord stored).transportServers
    rw [hkey, ← hsame, ← hrun.1]
    exact hafter
  -- the version with the host is not the one with the listener
  have hchanged : stored.transportServers.get (objectKey tsc.transportServer) ≠
      c.transportServers.get (objectKey tsc.transportServer) := by
    intro heq
    rw [hget, hbefore] at heq
    exact hregular (Option.some.inj heq ▸ hpass)
  cases hstores with
  | putTransportServer ts hclass hvalid =>
    rw [Store.get_put] at hget hchanged
    by_cases hts : objectKey ts = objectKey tsc.transportServer
    · rw [if_pos hts] at hget
      have hnew : ts = tsc'.transportServer := Option.some.inj hget
      rw [hrun.1, (Call.listeners_rebuild env ord _ rfl).1] at htsc'
      obtain ⟨l, hclaims, -, holdest⟩ := claimsPlace_newListenerHosts htsc'
      rw [← hnew] at hclaims holdest
      exact ⟨ts, rfl, hclass, hvalid, ⟨host, tsc, htsc, hts.symm⟩, l, place, hclaims,
        fun ts' l' hclaims' => not_lt_of_ge (holdest ts' l' hclaims')⟩
    · exact absurd (if_neg hts) hchanged
  | dropTransportServer | removeTransportServer =>
    rw [Store.get_remove] at hget hchanged
    split at hget
    · cases hget
    · exact absurd (if_neg ‹_›) hchanged
  | putIngress | dropIngress | removeIngress | putVirtualServer | dropVirtualServer
  | removeVirtualServer | putVirtualServerRoute | dropVirtualServerRoute
  | removeVirtualServerRoute | setListeners | clearListeners => exact absurd rfl hchanged

theorem not_disjoint_of_movesToListener {ts : TransportServer} (h : MovesToListener env c ts) :
    ∃ ord : Order, ¬ Disjoint (hostNames c)
      (listenerNames ((Call.addOrUpdateTransportServer ts).run env ord c).1) := by
  obtain ⟨host, tsc, htsc, hkey⟩ := h.hosted
  obtain ⟨l, place, hclaims, hoptimal⟩ := h.wins
  obtain ⟨ord, tsc', htsc', hts⟩ := exists_order_holding hclaims hoptimal
  refine ⟨ord, not_disjoint_iff.mpr ⟨(transportServer tsc).getKeyWithKind,
    mem_names.mpr ⟨host, _, htsc, rfl⟩,
    mem_names.mpr ⟨place, .transportServer tsc', get_listenerResources.mpr ⟨tsc', ?_, rfl⟩,
      getKeyWithKind_transportServer_inj.mpr (by rw [hts, hkey])⟩⟩⟩
  have hstore : (Call.addOrUpdateTransportServer ts).store env ord c =
      some { c with transportServers := c.transportServers.put ts } := by
    simp [Call.store, storeTransportServer, Store.accept, h.correctClass, h.valid]
  obtain ⟨hs, -⟩ | ⟨stored, hs, hrun, -⟩ := Call.run_eq env ord c (.addOrUpdateTransportServer ts)
  · cases hstore.symm.trans hs
  · cases hstore.symm.trans hs
    rw [hrun, (Call.listeners_rebuild env ord _ rfl).1]
    exact htsc'

/-- The changes of a call, applied to the configs of the active resources, leave the configs of the
resources that are active after it, unless the call moves a TransportServer from a host to a
listener. -/
theorem changes_replay_to_active_names (hreach : Reachable env c)
    (hstartup : c.startupComplete = true) (call : Call) :
    (∀ ord : Order, replayChanges (activeNames c) (call.run env ord c).2.changes =
        activeNames (call.run env ord c).1) ↔
      ∀ ts, call = .addOrUpdateTransportServer ts → ¬ MovesToListener env c ts := by
  constructor
  · intro hreplay ts hcall hmoves
    obtain ⟨ord, hnot⟩ := not_disjoint_of_movesToListener hmoves
    rw [← hcall] at hnot
    exact hnot ((replay_call hreach.tablesOk hstartup ord call).mp (hreplay ord))
  · intro hstays ord
    rw [replay_call hreach.tablesOk hstartup ord call]
    by_contra hnot
    obtain ⟨ts, hcall, hmoves⟩ := movesToListener_of_not_disjoint hreach.tablesOk hstartup hnot
    exact hstays ts hcall hmoves

end Calls

/-! ## A TransportServer that moves -/

def secureApp : TransportServer where
  objectMeta := {
    nspace := .of "default"
    name := .of "secure-app"
    generation := 1 }
  spec := {
    listener := ⟨tlsPassthroughListenerName, tlsPassthroughListenerProtocol⟩
    host := "app.example.com"
    upstreams := [{ name := "secure-app", service := "secure-app", port := 8443 }]
    action := some "secure-app" }

def secureAppRenamed : TransportServer where
  objectMeta := { secureApp.objectMeta with generation := 2 }
  spec := { secureApp.spec with host := "secure.example.com" }

def secureAppOverTcp : TransportServer where
  objectMeta := { secureApp.objectMeta with generation := 2 }
  spec := { secureApp.spec with listener := ⟨"tcp-5000", "TCP"⟩, host := "" }

def tcpListeners : GlobalConfiguration where
  objectMeta := {
    nspace := .of "nginx-ingress"
    name := .of "nginx-configuration" }
  listeners := [{ name := "tcp-5000", protocol := "TCP", port := 5000 }]

/-- Of two hosts of one TransportServer, one is lost and one is kept unchanged. -/
theorem kept_host_not_spared :
    let app := Resource.transportServer { transportServer := secureApp }
    let old : GoMap Resource :=
      Std.ExtTreeMap.ofList [("app.example.com", app), ("secure.example.com", app)]
    let new : GoMap Resource := Std.ExtTreeMap.ofList [("app.example.com", app)]
    let detected := detectChangesInHosts old new
    detected.updated = [] ∧ squashResourceChanges getKeyWithKind
      (createResourceChangesForHosts detected old new) = [{ op := .delete, resource := app }] := by
  decide +kernel

/-- The passthrough server has its host, and the TCP listener is free. -/
def withSecureApp : Configuration :=
  Op.runs (Env.permissive true) {} [
    (.asGiven, .api (.addOrUpdateGlobalConfiguration tcpListeners)),
    (.asGiven, .api (.addOrUpdateTransportServer secureApp)),
    (.asGiven, .completeStartup)]

theorem changes_replay_to_active_names_renamed :
    let after := (Call.addOrUpdateTransportServer secureAppRenamed).run (Env.permissive true)
      .asGiven withSecureApp
    replayChanges (activeNames withSecureApp) after.2.changes = activeNames after.1 := by
  refine (changes_replay_to_active_names (Reachable.init.runs _) (by decide +kernel)
    (.addOrUpdateTransportServer secureAppRenamed)).mpr ?_ .asGiven
  intro ts hts hmoves
  cases hts
  obtain ⟨l, place, hclaims, -⟩ := hmoves.wins
  exact hclaims.regular rfl

/-- The listener changes write the config, the host changes delete it again. -/
theorem move_to_listener_loses_active_name :
    Reachable (Env.permissive true) withSecureApp ∧ withSecureApp.startupComplete = true ∧
      let after := (Call.addOrUpdateTransportServer secureAppOverTcp).run (Env.permissive true)
        .asGiven withSecureApp
      replayChanges (activeNames withSecureApp) after.2.changes = ∅ ∧
        activeNames after.1 = {"TransportServer/default/secure-app"} := by
  refine ⟨Reachable.init.runs _, ?_⟩
  decide +kernel

end IngressController
