import IngressController.Configuration.Runs

/-! # Invariants of all runs

Stored Ingresses and TransportServers are accepted, both tables are well formed,
and the TransportServers of the two tables differ: those with a host are stored
passthrough servers, those with a listener are stored and are not.
-/

namespace IngressController

open IngressController.Configuration

/-- What the stores hold passed validation. -/
structure StoresOk (env : Env) (c : Configuration) : Prop where
  ingresses : ∀ ing, Stored c (.ingress ing) → env.validateIngress ing = none
  transportServers : ∀ ts, Stored c (.transportServer ts) → env.validateTransportServer ts = none

/-- A TransportServer with a host is a stored passthrough server, once startup is complete. -/
structure HostsOk (env : Env) (c : Configuration) : Prop where
  wf : HostsWf c.hosts
  passthrough : ∀ (h : String) tsc, c.hosts[h]? = some (.transportServer tsc) →
    env.isTLSPassthroughEnabled = true ∧ (c.startupComplete = true →
      Stored c (.transportServer tsc.transportServer) ∧
        isTLSPassthrough tsc.transportServer = true)

/-- A TransportServer with a listener is stored and not for passthrough. -/
structure ListenersOk (c : Configuration) : Prop where
  wf : ListenersWf c.listenerHosts
  regular : ∀ (p : ListenerHostKey) tsc, c.listenerHosts[p]? = some tsc →
    Stored c (.transportServer tsc.transportServer) ∧
      tsc.transportServer.spec.listener.protocol ≠ tlsPassthroughListenerProtocol

structure TablesOk (env : Env) (c : Configuration) : Prop where
  stores : StoresOk env c
  hosts : HostsOk env c
  listeners : ListenersOk c

section Frame

variable {env : Env} {c c' : Configuration}

theorem StoresOk.congr (h : StoresOk env c) (hing : c'.ingresses = c.ingresses)
    (hts : c'.transportServers = c.transportServers) : StoresOk env c' where
  ingresses ing hin := h.ingresses ing (by simpa [Stored, hing] using hin)
  transportServers ts hin := h.transportServers ts (by simpa [Stored, hts] using hin)

/-- The hosts stay fine when no TransportServer changes, before startup is complete and when
passthrough is disabled. -/
theorem HostsOk.congr (h : HostsOk env c) (hhosts : c'.hosts = c.hosts)
    (hstored : c'.startupComplete = true → env.isTLSPassthroughEnabled = true →
      c.startupComplete = true ∧ c'.transportServers = c.transportServers) : HostsOk env c' where
  wf := hhosts ▸ h.wf
  passthrough host tsc htsc := by
    rw [hhosts] at htsc
    obtain ⟨henabled, hpass⟩ := h.passthrough host tsc htsc
    refine ⟨henabled, fun hstartup => ?_⟩
    obtain ⟨hstartup', hts⟩ := hstored hstartup henabled
    simpa [Stored, hts] using hpass hstartup'

theorem ListenersOk.congr (h : ListenersOk c) (hlisteners : c'.listenerHosts = c.listenerHosts)
    (hts : c'.transportServers = c.transportServers) : ListenersOk c' where
  wf := hlisteners ▸ h.wf
  regular p tsc htsc := by
    rw [hlisteners] at htsc
    simpa [Stored, hts] using h.regular p tsc htsc

theorem hostsOk_rebuildHosts (h : StoresOk env c) (ord : Order) :
    HostsOk env (rebuildHosts env c ord).1 where
  wf := hostsWf_rebuildHosts h.ingresses
  passthrough host tsc htsc := by
    obtain ⟨hstored, henabled, hpass, -⟩ := claimsHost_rebuildHosts h.ingresses htsc
    exact ⟨henabled, fun _ => ⟨hstored, hpass⟩⟩

theorem listenersOk_rebuildListenerHosts (c : Configuration) (ord : Order) :
    ListenersOk (rebuildListenerHosts c ord).1 where
  wf := listenersWf_newListenerHosts c ord
  regular p tsc htsc := by
    obtain ⟨l, hclaims, -⟩ := claimsPlace_newListenerHosts htsc
    exact ⟨hclaims.stored, hclaims.regular⟩

theorem TablesOk.rebuildHosts (hstores : StoresOk env c) (hlisteners : ListenersOk c)
    (ord : Order) : TablesOk env (rebuildHosts env c ord).1 :=
  ⟨hstores.congr rfl rfl, hostsOk_rebuildHosts hstores ord, hlisteners.congr rfl rfl⟩

theorem TablesOk.rebuildHostsAfterStartup (hstores : StoresOk env c) (hlisteners : ListenersOk c)
    (hhosts : c.startupComplete = false → HostsOk env c) (ord : Order) :
    TablesOk env (rebuildHostsAfterStartup env ord c).1 := by
  unfold Configuration.rebuildHostsAfterStartup
  by_cases hstartup : c.startupComplete = true
  · rw [if_pos hstartup]
    exact .rebuildHosts hstores hlisteners ord
  · rw [if_neg hstartup]
    exact ⟨hstores, hhosts (by simpa using hstartup), hlisteners⟩

end Frame

section Calls

variable {env : Env} {ord : Order} {c c' : Configuration} {call : Call}

theorem Call.Stores.storesOk (h : Call.Stores env ord c call c') (hok : StoresOk env c) :
    StoresOk env c' := by
  cases h with
  | putIngress ing hclass hvalid =>
    refine ⟨fun ing' hin => ?_, hok.transportServers⟩
    simp only [Stored, Store.get_put] at hin
    split at hin
    · cases hin
      exact hvalid
    · exact hok.ingresses ing' hin
  | dropIngress | removeIngress =>
    refine ⟨fun ing' hin => ?_, hok.transportServers⟩
    simp only [Stored, Store.get_remove] at hin
    split at hin
    · cases hin
    · exact hok.ingresses ing' hin
  | putTransportServer ts hclass hvalid =>
    refine ⟨hok.ingresses, fun ts' hin => ?_⟩
    simp only [Stored, Store.get_put] at hin
    split at hin
    · cases hin
      exact hvalid
    · exact hok.transportServers ts' hin
  | dropTransportServer | removeTransportServer =>
    refine ⟨hok.ingresses, fun ts' hin => ?_⟩
    simp only [Stored, Store.get_remove] at hin
    split at hin
    · cases hin
    · exact hok.transportServers ts' hin
  | _ => exact hok.congr rfl rfl

theorem Call.Stores.transportServers_eq (h : Call.Stores env ord c call c')
    (hcall : call.rebuildsListeners = false ∨
      (∃ gc, call = .addOrUpdateGlobalConfiguration gc) ∨ call = .deleteGlobalConfiguration) :
    c'.transportServers = c.transportServers := by
  cases h <;> first | rfl | simp [Call.rebuildsListeners] at hcall

/-- A call that leaves the hosts alone after startup is about TransportServers without
passthrough. -/
theorem Call.rebuildsHosts_of_passthrough (call : Call)
    (henabled : env.isTLSPassthroughEnabled = true) : call.rebuildsHosts env = true := by
  cases call <;> simp [Call.rebuildsHosts, henabled]

theorem TablesOk.run (h : TablesOk env c) (ord : Order) (call : Call) :
    TablesOk env (call.run env ord c).1 := by
  obtain ⟨hs, hrun⟩ | ⟨stored, hs, hrun⟩ := Call.run_eq env ord c call
  · rw [hrun]
    exact h
  have hstores := Call.stores_of_store hs
  have htables := hstores.sameTables
  have hok := hstores.storesOk h.stores
  rw [hrun.1]
  unfold Call.rebuild
  by_cases hl : call.rebuildsListeners = true
  · rw [if_pos hl]
    have hlisteners := listenersOk_rebuildListenerHosts stored ord
    have hhosts : stored.startupComplete = false ∨ env.isTLSPassthroughEnabled = false →
        HostsOk env (rebuildListenerHosts stored ord).1 := by
      intro hcase
      refine h.hosts.congr htables.hosts fun hstartup henabled => ?_
      rcases hcase with hcase | hcase
      · exact absurd (hcase ▸ hstartup : false = true) (by simp)
      · exact absurd (hcase ▸ henabled : false = true) (by simp)
    by_cases hh : call.rebuildsHosts env = true
    · rw [hh, rebuildBoth_true]
      exact .rebuildHostsAfterStartup (c := (rebuildListenerHosts stored ord).1)
        (hok.congr rfl rfl) hlisteners (fun hstartup => hhosts (.inl hstartup)) ord
    · rw [Bool.eq_false_iff.mpr hh, rebuildBoth_false]
      refine ⟨hok.congr rfl rfl, hhosts (.inr ?_), hlisteners⟩
      by_contra henabled
      exact hh (call.rebuildsHosts_of_passthrough (by simpa using henabled))
  · rw [if_neg hl]
    have hts := hstores.transportServers_eq (.inl (by simpa using hl))
    refine TablesOk.rebuildHostsAfterStartup hok
      (h.listeners.congr htables.listenerHosts hts) (fun hstartup => ?_) ord
    exact h.hosts.congr htables.hosts fun hstartup' _ =>
      absurd (hstartup ▸ hstartup' : false = true) (by simp)

end Calls

theorem TablesOk.init (env : Env) : TablesOk env {} where
  stores := ⟨fun ing hin => by simp [Stored] at hin, fun ts hin => by simp [Stored] at hin⟩
  hosts := ⟨HostsWf.empty, fun h tsc htsc => by simp at htsc⟩
  listeners := {
    wf := ⟨fun p tsc htsc => by simp at htsc, fun p p' tsc tsc' htsc => by simp at htsc⟩
    regular := fun p tsc htsc => by simp at htsc }

variable {env : Env} {c : Configuration}

theorem TablesOk.haltIfVSConfigInvalid (h : TablesOk env c) (ord : Order) (vsNew : VirtualServer) :
    TablesOk env (c.haltIfVSConfigInvalid env ord vsNew).1 := by
  obtain ⟨vss, vss', heq⟩ := haltIfVSConfigInvalid_rebuilds env ord vsNew c
  have hrebuilt := TablesOk.rebuildHosts (c := { c with virtualServers := vss })
    (h.stores.congr rfl rfl) (h.listeners.congr rfl rfl) ord
  rw [heq]
  exact ⟨hrebuilt.stores.congr rfl rfl, hrebuilt.hosts.congr rfl fun hs _ => ⟨hs, rfl⟩,
    hrebuilt.listeners.congr rfl rfl⟩

theorem TablesOk.haltIfVSRConfigInvalid (h : TablesOk env c)
    (ord : Order) (vsrNew : VirtualServerRoute) :
    TablesOk env (c.haltIfVSRConfigInvalid env ord vsrNew).1 := by
  unfold Configuration.haltIfVSRConfigInvalid
  cases env.validateVirtualServerRoute vsrNew with
  | some err => exact h
  | none =>
    exact .rebuildHosts
      (c := { c with virtualServerRoutes := c.virtualServerRoutes.put vsrNew })
      (h.stores.congr rfl rfl) (h.listeners.congr rfl rfl) ord

theorem TablesOk.step (h : TablesOk env c) (ord : Order) (op : Op) :
    TablesOk env (op.run env ord c).1 := by
  cases op with
  | api call => exact h.run ord call
  | completeStartup =>
    exact .rebuildHostsAfterStartup (c := { c with startupComplete := true })
      (h.stores.congr rfl rfl) (h.listeners.congr rfl rfl) (fun hstartup => nomatch hstartup) ord
  | haltIfVSConfigInvalid vsNew => exact h.haltIfVSConfigInvalid ord vsNew
  | haltIfVSRConfigInvalid vsrNew => exact h.haltIfVSRConfigInvalid ord vsrNew

theorem Reachable.tablesOk (h : Reachable env c) :
    TablesOk env c := by
  induction h with
  | init => exact .init env
  | step _ ord op ih => exact ih.step ord op

end IngressController
