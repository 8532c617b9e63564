import IngressController.Configuration.ListenerTable
import IngressController.Configuration.Operations

/-! # What a step of a run does

Every call writes one store and then rebuilds tables. The log of a step leaves out
the validation error that a change may carry.
-/

namespace IngressController

open IngressController.Configuration Option

variable (env : Env) (ord : Order) (c : Configuration)

/-- What a call writes before it rebuilds; `none` when there is nothing to do. -/
def Call.store : Call → Option Configuration
  | .addOrUpdateIngress ing => some (storeIngress env ord ing c).1
  | .deleteIngress key =>
    if (c.ingresses.get key).isSome then some { c with
      ingresses := c.ingresses.remove key
      minionsByHost := removeMinionFromIndex ord key c.minionsByHost }
    else none
  | .addOrUpdateVirtualServer vs => some (storeVirtualServer env vs c).1
  | .deleteVirtualServer key =>
    if (c.virtualServers.get key).isSome then
      some { c with virtualServers := c.virtualServers.remove key }
    else none
  | .addOrUpdateVirtualServerRoute vsr => some (storeVirtualServerRoute env vsr c).1
  | .deleteVirtualServerRoute key =>
    if (c.virtualServerRoutes.get key).isSome then
      some { c with virtualServerRoutes := c.virtualServerRoutes.remove key }
    else none
  | .addOrUpdateTransportServer ts => some (storeTransportServer env ts c).1
  | .deleteTransportServer key =>
    if (c.transportServers.get key).isSome then
      some { c with transportServers := c.transportServers.remove key }
    else none
  | .addOrUpdateGlobalConfiguration gc =>
    some (setGlobalConfiguration (some (env.validateGlobalConfiguration gc).1) c)
  | .deleteGlobalConfiguration => some (setGlobalConfiguration none c)

def Call.rebuildsListeners : Call → Bool
  | .addOrUpdateTransportServer _ | .deleteTransportServer _
  | .addOrUpdateGlobalConfiguration _ | .deleteGlobalConfiguration => true
  | _ => false

def Call.rebuildsHosts : Call → Bool
  | .addOrUpdateTransportServer _ | .deleteTransportServer _ => env.isTLSPassthroughEnabled
  | _ => true

def Call.rebuild (call : Call) (c : Configuration) : Configuration × Report :=
  if call.rebuildsListeners then rebuildBoth env ord (call.rebuildsHosts env) c
  else rebuildHostsAfterStartup env ord c

theorem rebuildBoth_true :
    rebuildBoth env ord true c =
      let listeners := rebuildListenerHosts c ord
      let hosts := rebuildHostsAfterStartup env ord listeners.1
      (hosts.1, ⟨listeners.2.1 ++ hosts.2.changes, listeners.2.2 ++ hosts.2.problems⟩) :=
  rfl

theorem rebuildBoth_false :
    rebuildBoth env ord false c =
      let listeners := rebuildListenerHosts c ord
      (listeners.1, ⟨listeners.2.1, listeners.2.2⟩) :=
  rfl

/-- The changes of a report without their errors. -/
def Report.log (report : Report) : List (ChangeLog.Operation × Resource) :=
  report.changes.map fun change => (change.op, change.resource)

theorem attachError_log {key err : String} {changes changes' : List ResourceChange}
    (h : attachError key err changes = some changes') :
    changes'.map (fun change => (change.op, change.resource)) =
      changes.map fun change => (change.op, change.resource) := by
  induction changes generalizing changes' with
  | nil => cases h
  | cons change rest ih =>
    unfold attachError at h
    split at h
    · cases h
      rfl
    · obtain ⟨rest', hrest, rfl⟩ := map_eq_some_iff.mp h
      rw [List.map_cons, List.map_cons, ih hrest]

theorem log_rejectIf (key : String) (problem : String → ConfigurationProblem)
    (err : Option String) (report : Report) :
    (Report.rejectIf key problem err report).log = report.log := by
  cases err with
  | none => rfl
  | some err =>
    simp only [Report.rejectIf, Report.reject]
    cases ha : attachError key err report.changes with
    | none => rfl
    | some changes => exact attachError_log ha

theorem Call.run_eq (call : Call) : (call.store env ord c = none ∧ call.run env ord c = (c, {})) ∨
      ∃ stored, call.store env ord c = some stored ∧
        (call.run env ord c).1 = (call.rebuild env ord stored).1 ∧
        (call.run env ord c).2.log = (call.rebuild env ord stored).2.log := by
  cases call with
  | addOrUpdateIngress | addOrUpdateVirtualServer | addOrUpdateTransportServer =>
    exact .inr ⟨_, rfl, rfl, log_rejectIf ..⟩
  | addOrUpdateGlobalConfiguration | deleteGlobalConfiguration => exact .inr ⟨_, rfl, rfl, rfl⟩
  | addOrUpdateVirtualServerRoute vsr =>
    refine .inr ⟨_, rfl, ?_⟩
    simp only [run, Configuration.addOrUpdateVirtualServerRoute]
    cases (storeVirtualServerRoute env vsr c).2 <;> exact ⟨rfl, rfl⟩
  | deleteIngress key =>
    by_cases hk : (c.ingresses.get key).isSome <;>
      simp [store, run, Configuration.deleteIngress, hk, rebuild, rebuildsListeners]
  | deleteVirtualServer key =>
    by_cases hk : (c.virtualServers.get key).isSome <;>
      simp [store, run, Configuration.deleteVirtualServer, hk, rebuild, rebuildsListeners]
  | deleteVirtualServerRoute key =>
    by_cases hk : (c.virtualServerRoutes.get key).isSome <;>
      simp [store, run, Configuration.deleteVirtualServerRoute, hk, rebuild, rebuildsListeners]
  | deleteTransportServer key =>
    by_cases hk : (c.transportServers.get key).isSome <;>
      simp [store, run, Configuration.deleteTransportServer, hk, rebuild,
        rebuildsListeners, rebuildsHosts]

/-- Storing leaves the tables alone. -/
structure SameTables (c c' : Configuration) : Prop where
  hosts : c'.hosts = c.hosts
  listenerHosts : c'.listenerHosts = c.listenerHosts
  hostProblems : c'.hostProblems = c.hostProblems
  listenerProblems : c'.listenerProblems = c.listenerProblems
  startupComplete : c'.startupComplete = c.startupComplete

section Store

variable {env : Env} {ord : Order} {c c' : Configuration} {call : Call}

/-- The configuration a call stores, by cases: one store is changed, or the listeners are. -/
inductive Call.Stores (env : Env) (ord : Order) (c : Configuration) : Call → Configuration → Prop
  | putIngress (ing : Ingress) (hclass : env.hasCorrectIngressClass (.ingress ing) = true)
      (hvalid : env.validateIngress ing = none) :
      Stores env ord c (.addOrUpdateIngress ing) { c with
        ingresses := c.ingresses.put ing
        minionsByHost := updateMinionIndex ord (objectKey ing) (some ing) c.minionsByHost }
  | dropIngress (ing : Ingress)
      (hdrop : ¬ (env.hasCorrectIngressClass (.ingress ing) = true ∧
        env.validateIngress ing = none)) :
      Stores env ord c (.addOrUpdateIngress ing) { c with
        ingresses := c.ingresses.remove (objectKey ing)
        minionsByHost := updateMinionIndex ord (objectKey ing) none c.minionsByHost }
  | removeIngress (key : String) (hk : (c.ingresses.get key).isSome = true) :
      Stores env ord c (.deleteIngress key) { c with
        ingresses := c.ingresses.remove key
        minionsByHost := removeMinionFromIndex ord key c.minionsByHost }
  | putVirtualServer (vs : VirtualServer)
      (hclass : env.hasCorrectIngressClass (.virtualServer vs) = true)
      (hvalid : env.validateVirtualServer vs = none) :
      Stores env ord c (.addOrUpdateVirtualServer vs)
        { c with virtualServers := c.virtualServers.put (balancedVirtualServer env vs) }
  | dropVirtualServer (vs : VirtualServer)
      (hdrop : ¬ (env.hasCorrectIngressClass (.virtualServer vs) = true ∧
        env.validateVirtualServer vs = none)) :
      Stores env ord c (.addOrUpdateVirtualServer vs)
        { c with virtualServers := c.virtualServers.remove (objectKey vs) }
  | removeVirtualServer (key : String) (hk : (c.virtualServers.get key).isSome = true) :
      Stores env ord c (.deleteVirtualServer key)
        { c with virtualServers := c.virtualServers.remove key }
  | putVirtualServerRoute (vsr : VirtualServerRoute)
      (hclass : env.hasCorrectIngressClass (.virtualServerRoute vsr) = true)
      (hvalid : env.validateVirtualServerRoute vsr = none) :
      Stores env ord c (.addOrUpdateVirtualServerRoute vsr) { c with
        virtualServerRoutes := c.virtualServerRoutes.put (balancedVirtualServerRoute env vsr) }
  | dropVirtualServerRoute (vsr : VirtualServerRoute)
      (hdrop : ¬ (env.hasCorrectIngressClass (.virtualServerRoute vsr) = true ∧
        env.validateVirtualServerRoute vsr = none)) :
      Stores env ord c (.addOrUpdateVirtualServerRoute vsr)
        { c with virtualServerRoutes := c.virtualServerRoutes.remove (objectKey vsr) }
  | removeVirtualServerRoute (key : String) (hk : (c.virtualServerRoutes.get key).isSome = true) :
      Stores env ord c (.deleteVirtualServerRoute key)
        { c with virtualServerRoutes := c.virtualServerRoutes.remove key }
  | putTransportServer (ts : TransportServer)
      (hclass : env.hasCorrectIngressClass (.transportServer ts) = true)
      (hvalid : env.validateTransportServer ts = none) :
      Stores env ord c (.addOrUpdateTransportServer ts)
        { c with transportServers := c.transportServers.put ts }
  | dropTransportServer (ts : TransportServer)
      (hdrop : ¬ (env.hasCorrectIngressClass (.transportServer ts) = true ∧
        env.validateTransportServer ts = none)) :
      Stores env ord c (.addOrUpdateTransportServer ts)
        { c with transportServers := c.transportServers.remove (objectKey ts) }
  | removeTransportServer (key : String) (hk : (c.transportServers.get key).isSome = true) :
      Stores env ord c (.deleteTransportServer key)
        { c with transportServers := c.transportServers.remove key }
  | setListeners (gc : GlobalConfiguration) :
      Stores env ord c (.addOrUpdateGlobalConfiguration gc)
        (setGlobalConfiguration (some (env.validateGlobalConfiguration gc).1) c)
  | clearListeners :
      Stores env ord c .deleteGlobalConfiguration (setGlobalConfiguration none c)

theorem Call.stores_of_store (h : call.store env ord c = some c') :
    Stores env ord c call c' := by
  cases call with
  | addOrUpdateIngress ing =>
    cases h
    unfold storeIngress
    obtain ⟨hok, heq⟩ | ⟨hdrop, heq⟩ := c.ingresses.accept_cases
      (env.hasCorrectIngressClass (.ingress ing)) (env.validateIngress ing) ing
    · simp only [hok, isNone_none, Bool.and_self, if_true]
      exact .putIngress ing hok.1 hok.2
    have hnone : (env.hasCorrectIngressClass (.ingress ing) &&
        (env.validateIngress ing).isNone) = false := by
      rw [← Bool.not_eq_true, Bool.and_eq_true, isNone_iff_eq_none]
      exact hdrop
    simp only [heq, hnone]
    exact .dropIngress ing hdrop
  | addOrUpdateVirtualServer vs =>
    cases h
    unfold storeVirtualServer
    obtain ⟨hok, heq⟩ | ⟨hdrop, heq⟩ := c.virtualServers.accept_cases
      (env.hasCorrectIngressClass (.virtualServer vs)) (env.validateVirtualServer vs)
      (balancedVirtualServer env vs)
    · rw [heq]
      exact .putVirtualServer vs hok.1 hok.2
    · rw [heq]
      exact .dropVirtualServer vs hdrop
  | addOrUpdateVirtualServerRoute vsr =>
    cases h
    unfold storeVirtualServerRoute
    obtain ⟨hok, heq⟩ | ⟨hdrop, heq⟩ := c.virtualServerRoutes.accept_cases
      (env.hasCorrectIngressClass (.virtualServerRoute vsr))
      (env.validateVirtualServerRoute vsr) (balancedVirtualServerRoute env vsr)
    · rw [heq]
      exact .putVirtualServerRoute vsr hok.1 hok.2
    · rw [heq]
      exact .dropVirtualServerRoute vsr hdrop
  | addOrUpdateTransportServer ts =>
    cases h
    unfold storeTransportServer
    obtain ⟨hok, heq⟩ | ⟨hdrop, heq⟩ := c.transportServers.accept_cases
      (env.hasCorrectIngressClass (.transportServer ts)) (env.validateTransportServer ts) ts
    · rw [heq]
      exact .putTransportServer ts hok.1 hok.2
    · rw [heq]
      exact .dropTransportServer ts hdrop
  | deleteIngress key =>
    simp only [store, ite_none_right_eq_some, some.injEq] at h
    exact h.2 ▸ .removeIngress key h.1
  | deleteVirtualServer key =>
    simp only [store, ite_none_right_eq_some, some.injEq] at h
    exact h.2 ▸ .removeVirtualServer key h.1
  | deleteVirtualServerRoute key =>
    simp only [store, ite_none_right_eq_some, some.injEq] at h
    exact h.2 ▸ .removeVirtualServerRoute key h.1
  | deleteTransportServer key =>
    simp only [store, ite_none_right_eq_some, some.injEq] at h
    exact h.2 ▸ .removeTransportServer key h.1
  | addOrUpdateGlobalConfiguration gc =>
    cases h
    exact .setListeners gc
  | deleteGlobalConfiguration =>
    cases h
    exact .clearListeners

theorem Call.Stores.sameTables (h : Stores env ord c call c') : SameTables c c' := by
  cases h <;> exact ⟨rfl, rfl, rfl, rfl, rfl⟩

end Store

/-- Rebuilding leaves the stores alone. -/
structure SameStores (c c' : Configuration) : Prop where
  ingresses : c'.ingresses = c.ingresses
  virtualServers : c'.virtualServers = c.virtualServers
  virtualServerRoutes : c'.virtualServerRoutes = c.virtualServerRoutes
  transportServers : c'.transportServers = c.transportServers
  minionsByHost : c'.minionsByHost = c.minionsByHost
  globalConfiguration : c'.globalConfiguration = c.globalConfiguration
  listenerMap : c'.listenerMap = c.listenerMap

section Rebuild

variable (env : Env) (ord : Order) (c : Configuration)

theorem sameStores_rebuildHosts : SameStores c (rebuildHosts env c ord).1 :=
  ⟨rfl, rfl, rfl, rfl, rfl, rfl, rfl⟩

theorem sameStores_rebuildListenerHosts : SameStores c (rebuildListenerHosts c ord).1 :=
  ⟨rfl, rfl, rfl, rfl, rfl, rfl, rfl⟩

theorem sameStores_rebuildHostsAfterStartup :
    SameStores c (rebuildHostsAfterStartup env ord c).1 := by
  unfold rebuildHostsAfterStartup
  split
  · exact sameStores_rebuildHosts env ord c
  · exact ⟨rfl, rfl, rfl, rfl, rfl, rfl, rfl⟩

theorem sameStores_rebuildBoth (hostsToo : Bool) :
    SameStores c (rebuildBoth env ord hostsToo c).1 := by
  cases hostsToo with
  | false => exact sameStores_rebuildListenerHosts ord c
  | true =>
    have h := sameStores_rebuildHostsAfterStartup env ord (rebuildListenerHosts c ord).1
    exact ⟨h.1, h.2, h.3, h.4, h.5, h.6, h.7⟩

variable (call : Call)

theorem Call.sameStores_rebuild : SameStores c (call.rebuild env ord c).1 := by
  unfold rebuild
  split
  · exact sameStores_rebuildBoth env ord c _
  · exact sameStores_rebuildHostsAfterStartup env ord c

theorem listeners_rebuildHostsAfterStartup :
    (rebuildHostsAfterStartup env ord c).1.listenerHosts = c.listenerHosts ∧
      (rebuildHostsAfterStartup env ord c).1.listenerProblems = c.listenerProblems := by
  unfold rebuildHostsAfterStartup
  split <;> exact ⟨rfl, rfl⟩

theorem listeners_rebuildBoth (hostsToo : Bool) :
    (rebuildBoth env ord hostsToo c).1.listenerHosts = newListenerHosts c ord ∧
      (rebuildBoth env ord hostsToo c).1.listenerProblems = newListenerProblems c ord := by
  cases hostsToo with
  | false => exact ⟨rfl, rfl⟩
  | true => exact listeners_rebuildHostsAfterStartup env ord (rebuildListenerHosts c ord).1

/-- A call about TransportServers or listeners rebuilds the listener tables. -/
theorem Call.listeners_rebuild {call : Call} (h : call.rebuildsListeners = true) :
    (call.rebuild env ord c).1.listenerHosts = newListenerHosts c ord ∧
      (call.rebuild env ord c).1.listenerProblems = newListenerProblems c ord := by
  rw [rebuild, if_pos h]
  exact listeners_rebuildBoth env ord c _

theorem startupComplete_rebuildHostsAfterStartup :
    (rebuildHostsAfterStartup env ord c).1.startupComplete = c.startupComplete := by
  unfold rebuildHostsAfterStartup
  split <;> rfl

theorem Call.startupComplete_rebuild :
    (call.rebuild env ord c).1.startupComplete = c.startupComplete := by
  unfold rebuild
  split
  · cases call.rebuildsHosts env with
    | true => exact startupComplete_rebuildHostsAfterStartup env ord _
    | false => rfl
  · exact startupComplete_rebuildHostsAfterStartup env ord c

theorem Call.run_startupComplete : (call.run env ord c).1.startupComplete = c.startupComplete := by
  obtain ⟨hs, hrun⟩ | ⟨stored, hs, hrun⟩ := run_eq env ord c call
  · rw [hrun]
  · rw [hrun.1, call.startupComplete_rebuild, (stores_of_store hs).sameTables.startupComplete]

end Rebuild

end IngressController
