import IngressController.Configuration.Rendered

/-! # The tables after startup

After startup the tables are those the stores give. The one exception are the VirtualServers:
the weight path can write one after its rebuild.
-/

namespace IngressController

open IngressController.Configuration

/-- The hosts are those the stores give, with these VirtualServers. -/
def BuiltHostsWith (env : Env) (c : Configuration) (vss : Store VirtualServer) (o : Order) : Prop :=
  BuiltHosts env { c with virtualServers := vss } o

section Hosts

variable {env : Env} {c : Configuration} {vss : Store VirtualServer} {o : Order}

theorem BuiltHosts.toWith (h : BuiltHosts env c o) : BuiltHostsWith env c c.virtualServers o := h

theorem BuiltHostsWith.run (h : BuiltHostsWith env c vss o) (hstartup : c.startupComplete = true)
    (ord : Order) (call : Call) :
    BuiltHosts env (call.run env ord c).1 ord ∨
      BuiltHostsWith env (call.run env ord c).1 vss o ∧
        (call.run env ord c).1.virtualServers = c.virtualServers := by
  obtain hbuilt | ⟨hinputs, hhosts, hproblems⟩ := Call.builds_or_keeps_hosts hstartup ord call
  · exact .inl hbuilt
  · have hinputs' : SameHostInputs env { c with virtualServers := vss }
        { (call.run env ord c).1 with virtualServers := vss } :=
      ⟨hinputs.1, rfl, hinputs.3, hinputs.4, hinputs.5, hinputs.6, hinputs.7⟩
    exact .inr ⟨BuiltHosts.congr h hinputs' hhosts hproblems, hinputs.2⟩

/-- What the weight path leaves: its rebuild and, after a rebuild that changed something, the
rejected VirtualServer in the store. -/
theorem haltIfVSConfigInvalid_eq (env : Env) (c : Configuration) (ord : Order)
    (vsNew : VirtualServer) :
    let stored := (Op.haltIfVSConfigInvalid vsNew).stored env ord c
    (c.haltIfVSConfigInvalid env ord vsNew).1 =
      if env.validateVirtualServer vsNew ≠ none ∧ (rebuildHosts env stored ord).2.1 ≠ [] then
        { (rebuildHosts env stored ord).1 with
          virtualServers := stored.virtualServers.put vsNew }
      else (rebuildHosts env stored ord).1 := by
  obtain hvalid | ⟨err, hvalid⟩ : env.validateVirtualServer vsNew = none ∨
      ∃ err, env.validateVirtualServer vsNew = some err := by
    cases env.validateVirtualServer vsNew <;> simp
  · -- the VirtualServer is there already
    have hput : (c.virtualServers.put vsNew).put vsNew = c.virtualServers.put vsNew :=
      Store.put_of_get (by simp)
    simp only [haltIfVSConfigInvalid, Op.stored, hvalid, ne_eq, not_true_eq_false, false_and,
      if_false]
    split
    · rfl
    · exact congrArg (fun vss : Store VirtualServer => { (rebuildHosts env
        { c with virtualServers := c.virtualServers.put vsNew } ord).1 with
          virtualServers := vss }) hput
  · simp only [haltIfVSConfigInvalid, Op.stored, hvalid, ne_eq, reduceCtorEq, not_false_eq_true,
      true_and, List.isEmpty_iff, ite_not]
    split <;> rfl

theorem builtHostsWith_haltIfVSConfigInvalid (env : Env) (c : Configuration) (ord : Order)
    (vsNew : VirtualServer) :
    BuiltHostsWith env (c.haltIfVSConfigInvalid env ord vsNew).1
      ((Op.haltIfVSConfigInvalid vsNew).stored env ord c).virtualServers ord := by
  have hbuilt : BuiltHosts env
      (rebuildHosts env ((Op.haltIfVSConfigInvalid vsNew).stored env ord c) ord).1 ord :=
    builtHosts_rebuildHosts
  rw [haltIfVSConfigInvalid_eq]
  split <;> exact hbuilt

/-- The hosts show no VirtualServer whose key is no longer stored. -/
theorem Reachable.builtHostsWith (h : Reachable env c) :
    c.startupComplete = true → ∃ vss o, BuiltHostsWith env c vss o ∧
      ∀ vs, vss.get (objectKey vs) = some vs → (c.virtualServers.get (objectKey vs)).isSome := by
  have hself : ∀ (s : Store VirtualServer) (vs : VirtualServer),
      s.get (objectKey vs) = some vs → (s.get (objectKey vs)).isSome := by simp_all
  induction h with
  | init => exact fun hstartup => nomatch hstartup
  | @step c _ ord op ih =>
    intro hstartup
    cases op with
    | api call =>
      have hbefore := (Call.run_startupComplete env ord c call).symm.trans hstartup
      obtain ⟨vss, o, hbuilt, hstored⟩ := ih hbefore
      obtain hnew | hold := hbuilt.run hbefore ord call
      · exact ⟨_, ord, hnew.toWith, hself _⟩
      · exact ⟨vss, o, hold.1, hold.2.symm ▸ hstored⟩
    | completeStartup => exact ⟨_, ord, (builtHosts_rebuildHosts (c := { c with
        startupComplete := true })).toWith, hself _⟩
    | haltIfVSConfigInvalid vsNew =>
      refine ⟨_, ord, builtHostsWith_haltIfVSConfigInvalid env c ord vsNew, fun vs hvs => ?_⟩
      rw [Op.run, haltIfVSConfigInvalid_eq]
      split
      · simp only [Store.get_put]
        split <;> simp [hvs]
      · exact hself _ vs hvs
    | haltIfVSRConfigInvalid vsrNew =>
      revert hstartup
      simp only [Op.run, haltIfVSRConfigInvalid]
      cases env.validateVirtualServerRoute vsrNew with
      | some err => exact ih
      | none => exact fun _ => ⟨_, ord, builtHosts_rebuildHosts.toWith, hself _⟩

theorem Reachable.builtListeners (h : Reachable env c) : ∃ o, BuiltListeners c o := by
  induction h with
  | init => exact ⟨.asGiven, builtListeners_init .asGiven false⟩
  | @step c _ ord op ih =>
    obtain ⟨o, hbuilt⟩ := ih
    cases op with
    | api call =>
      obtain hnew | hold := hbuilt.run env ord call
      · exact ⟨ord, hnew⟩
      · exact ⟨o, hold⟩
    | completeStartup => exact ⟨o, hbuilt.congr rfl rfl rfl rfl⟩
    | haltIfVSConfigInvalid vsNew =>
      obtain ⟨vss, vss', heq⟩ := haltIfVSConfigInvalid_rebuilds env ord vsNew c
      rw [Op.run, heq]
      exact ⟨o, hbuilt.congr rfl rfl rfl rfl⟩
    | haltIfVSRConfigInvalid vsrNew =>
      simp only [Op.run, haltIfVSRConfigInvalid]
      cases env.validateVirtualServerRoute vsrNew with
      | some err => exact ⟨o, hbuilt⟩
      | none => exact ⟨o, hbuilt.congr rfl rfl rfl rfl⟩

theorem Reachable.minions_of_master (h : Reachable env c) (hstartup : c.startupComplete = true)
    {host : String} {ic : IngressConfiguration} (hic : c.hosts[host]? = some (.ingress ic))
    (hmaster : ic.isMaster = true) :
    (ic.minions, ic.childWarnings) = buildMinionConfigs c ic.ingress.firstHost := by
  obtain ⟨vss, o, hbuilt, -⟩ := h.builtHostsWith hstartup
  have hok : StoresOk env { c with virtualServers := vss } := h.tablesOk.stores.congr rfl rfl
  have hhosts : c.hosts = (rebuildHosts env { c with virtualServers := vss } o).1.hosts :=
    hbuilt.hosts
  rw [hhosts] at hic
  exact (builtFrom_rebuildHosts hok hic).kindBuilt.ofHost hmaster

end Hosts

/-- The objects behind the tables: holders of hosts and listeners, minions of masters, attached
routes and the challenge Ingresses that attached routes stand for. -/
inductive Shown (env : Env) (c : Configuration) : ConfigurationObject → Prop
  | holder {host : String} {r : Resource} (h : c.hosts[host]? = some r) : Shown env c r.object
  | minion {host : String} {ic : IngressConfiguration} {m : MinionConfiguration}
      (h : c.hosts[host]? = some (.ingress ic)) (hm : m ∈ ic.minions) :
      Shown env c (.ingress m.ingress)
  | route {host : String} {vsc : VirtualServerConfiguration} {vsr : VirtualServerRoute}
      (h : c.hosts[host]? = some (.virtualServer vsc)) (hin : vsr ∈ vsc.virtualServerRoutes)
      (hroute : vsr ∉ challenges env c) : Shown env c (.virtualServerRoute vsr)
  | challenge {host : String} {vsc : VirtualServerConfiguration} {vsr : VirtualServerRoute}
      {ing : Ingress} (h : c.hosts[host]? = some (.virtualServer vsc))
      (hin : vsr ∈ vsc.virtualServerRoutes) (hstored : Stored c (.ingress ing))
      (hregular : isMinion ing = false) (hchallenge : challengeVSR env c ing = some vsr) :
      Shown env c (.ingress ing)
  | listener {place : ListenerHostKey} {tsc : TransportServerConfiguration}
      (h : c.listenerHosts[place]? = some tsc) : Shown env c (.transportServer tsc.transportServer)

section Shown

variable {env : Env} {c : Configuration} {o o' : Order}

theorem Shown.stored (hok : StoresOk env c) (hlistenersOk : ListenersOk c)
    (hbuilt : BuiltHosts env c o) {x : ConfigurationObject} (h : Shown env c x) : Stored c x := by
  have hkind : ∀ {host : String} {r : Resource}, c.hosts[host]? = some r → KindBuilt env c r := by
    intro host r hr
    rw [hbuilt.hosts] at hr
    exact (builtFrom_rebuildHosts hok hr).kindBuilt
  cases h with
  | @holder host r h =>
    cases r <;> exact (hkind h).stored
  | minion h hm => exact (hkind h).minionsStored _ hm
  | route h hin hroute =>
    obtain hstored | hchallenge := (hkind h).routes _ hin
    · exact hstored
    · exact absurd hchallenge hroute
  | challenge h hin hstored => exact hstored
  | listener h => exact (hlistenersOk.regular _ _ h).1

/-- TransportServers are shown only as long as they are stored, also when the hosts are not
rebuilt. -/
theorem Shown.stored_transportServer (hok : TablesOk env c) (hstartup : c.startupComplete = true)
    {ts : TransportServer} (h : Shown env c (.transportServer ts)) :
    Stored c (.transportServer ts) := by
  generalize hx : ConfigurationObject.transportServer ts = x at h
  cases h with
  | @holder host r h =>
    cases r with
    | transportServer tsc =>
      cases hx
      exact ((hok.hosts.passthrough host tsc h).2 hstartup).1
    | ingress | virtualServer => cases hx
  | listener h =>
    cases hx
    exact (hok.listeners.regular _ _ h).1
  | minion | route | challenge => cases hx

end Shown

end IngressController
