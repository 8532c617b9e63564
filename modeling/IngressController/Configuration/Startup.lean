import IngressController.Configuration.Invariants
import IngressController.Configuration.MinionIndex

/-! # Deferred startup

Until startup is complete the hosts are not rebuilt. The tables are functions of the
stores and of the orders in which Go visits its maps, and the stores hold the last
accepted version of every object. So rebuilding once, at the end of startup, gives the
tables that rebuilding all along gives.
-/

namespace IngressController

open IngressController.Configuration Call
open Function (update update_apply)

structure Tables where
  hosts : GoMap Resource
  listenerHosts : Table ListenerHostKey TransportServerConfiguration
  hostProblems : GoMap ConfigurationProblem
  listenerProblems : GoMap ConfigurationProblem

namespace Configuration

def tables (c : Configuration) : Tables :=
  ⟨c.hosts, c.listenerHosts, c.hostProblems, c.listenerProblems⟩

def builtTables (env : Env) (ord : Order) (c : Configuration) : Tables :=
  ⟨(rebuildHosts env c ord).1.hosts, newListenerHosts c ord, newHostProblems env c ord,
    newListenerProblems c ord⟩

end Configuration

/-- What the hosts are built from; TransportServers only with passthrough. -/
structure SameHostInputs (env : Env) (c c' : Configuration) : Prop where
  ingresses : c'.ingresses = c.ingresses
  virtualServers : c'.virtualServers = c.virtualServers
  virtualServerRoutes : c'.virtualServerRoutes = c.virtualServerRoutes
  transportServers : env.isTLSPassthroughEnabled = true → c'.transportServers = c.transportServers
  minionsByHost : c'.minionsByHost = c.minionsByHost
  globalConfiguration : c'.globalConfiguration = c.globalConfiguration
  listenerMap : c'.listenerMap = c.listenerMap

structure BuiltHosts (env : Env) (c : Configuration) (ord : Order) : Prop where
  hosts : c.hosts = (rebuildHosts env c ord).1.hosts
  problems : c.hostProblems = newHostProblems env c ord

structure BuiltListeners (c : Configuration) (ord : Order) : Prop where
  listenerHosts : c.listenerHosts = newListenerHosts c ord
  problems : c.listenerProblems = newListenerProblems c ord

section Congr

variable {env : Env} {c c' : Configuration} {ord : Order}

theorem SameStores.hostInputs (h : SameStores c c') (env : Env) : SameHostInputs env c c' :=
  ⟨h.1, h.2, h.3, fun _ => h.4, h.5, h.6, h.7⟩

variable (h : SameHostInputs env c c')
include h

theorem buildHostsAndResources_congr :
    buildHostsAndResources env c' ord = buildHostsAndResources env c ord := by
  obtain ⟨hing, hvs, hvsr, hts, hminions, hgc, hmap⟩ := h
  cases c
  cases c'
  simp only at hing hvs hvsr hts hminions hgc hmap
  subst hing hvs hvsr hminions hgc hmap
  unfold buildHostsAndResources
  by_cases henabled : env.isTLSPassthroughEnabled = true
  · simp only [hts henabled]
    rfl
  · rw [if_neg henabled, if_neg henabled]
    rfl

theorem newHosts_congr (ord : Order) : newHosts env c' ord = newHosts env c ord := by
  simp only [newHosts, newResources, buildHostsAndResources_congr h]

theorem rebuildHosts_congr (ord : Order) :
    (rebuildHosts env c' ord).1.hosts = (rebuildHosts env c ord).1.hosts ∧
      newHostProblems env c' ord = newHostProblems env c ord := by
  have hbuild := @buildHostsAndResources_congr env c c' ord h
  obtain ⟨hing, hvs, hvsr, -, hminions, hgc, hmap⟩ := h
  cases c
  cases c'
  simp only at hing hvs hvsr hminions hgc hmap
  subst hing hvs hvsr hminions hgc hmap
  simp only [rebuildHosts, warnedResources, newHostProblems, newHosts, newResources, hbuild]
  exact ⟨rfl, rfl⟩

omit h

theorem BuiltHosts.congr (h : BuiltHosts env c ord) (hinputs : SameHostInputs env c c')
    (hhosts : c'.hosts = c.hosts) (hproblems : c'.hostProblems = c.hostProblems) :
    BuiltHosts env c' ord := by
  have hsame := rebuildHosts_congr hinputs ord
  exact ⟨by rw [hhosts, h.hosts, hsame.1], by rw [hproblems, h.problems, hsame.2]⟩

theorem builtHosts_rebuildHosts : BuiltHosts env (rebuildHosts env c ord).1 ord := by
  have hsame := rebuildHosts_congr ((sameStores_rebuildHosts env ord c).hostInputs env) ord
  exact ⟨hsame.1.symm, hsame.2.symm⟩

theorem newListeners_congr (hts : c'.transportServers = c.transportServers)
    (hgc : c'.globalConfiguration = c.globalConfiguration) (ord : Order) :
    newListenerHosts c' ord = newListenerHosts c ord ∧
      newListenerProblems c' ord = newListenerProblems c ord := by
  cases c
  cases c'
  simp only at hts hgc
  subst hts hgc
  exact ⟨rfl, rfl⟩

theorem BuiltListeners.congr (h : BuiltListeners c ord)
    (hts : c'.transportServers = c.transportServers)
    (hgc : c'.globalConfiguration = c.globalConfiguration)
    (hlisteners : c'.listenerHosts = c.listenerHosts)
    (hproblems : c'.listenerProblems = c.listenerProblems) : BuiltListeners c' ord := by
  have hsame := newListeners_congr hts hgc ord
  exact ⟨by rw [hlisteners, h.listenerHosts, hsame.1], by rw [hproblems, h.problems, hsame.2]⟩

theorem builtTables_congr (h : SameStores c c') :
    builtTables env ord c' = builtTables env ord c := by
  have hhosts := rebuildHosts_congr (h.hostInputs env) ord
  have hlisteners := newListeners_congr h.transportServers h.globalConfiguration ord
  simp only [builtTables, hhosts, hlisteners]

end Congr

section Calls

variable {env : Env} {c : Configuration} {o : Order}

theorem visit_nil (o : Order) (loop : Loop) : o.visit loop [] = [] :=
  (o.perm loop []).eq_nil

theorem builtHosts_init (env : Env) (o : Order) (startupComplete : Bool) :
    BuiltHosts env { startupComplete } o := by
  have hbuild : buildHostsAndResources env { startupComplete } o = {} := by
    simp [buildHostsAndResources]
  constructor
  · apply Std.ExtTreeMap.ext_getElem?
    intro host
    simp [rebuildHosts, get_resolveHosts, hbuild]
  · simp only [newHostProblems, newHosts, newResources, hbuild]
    rfl

theorem builtListeners_init (o : Order) (startupComplete : Bool) :
    BuiltListeners { startupComplete } o := by
  have hbuild : buildListenerHostsAndTSConfigurations { startupComplete } o = {} := by
    simp [buildListenerHostsAndTSConfigurations, visit_nil]
  constructor
  · apply Std.ExtTreeMap.ext_getElem?
    intro place
    simp [newListenerHosts, resolveListenerHosts, hbuild]
  · simp only [newListenerProblems, newListenerHosts, hbuild]
    rfl

/-- A call leaves listeners that the stores give: those of its own rebuild or those it found. -/
theorem BuiltListeners.run (h : BuiltListeners c o) (env : Env) (ord : Order) (call : Call) :
    BuiltListeners (call.run env ord c).1 ord ∨ BuiltListeners (call.run env ord c).1 o := by
  obtain ⟨hs, hrun⟩ | ⟨stored, hs, hrun⟩ := run_eq env ord c call
  · rw [hrun]
    exact .inr h
  rw [hrun.1]
  have hstores := stores_of_store hs
  have htables := hstores.sameTables
  have hsame := call.sameStores_rebuild env ord stored
  by_cases hl : call.rebuildsListeners = true
  · have hbuilt : BuiltListeners (rebuildListenerHosts stored ord).1 ord := ⟨rfl, rfl⟩
    have hnew := call.listeners_rebuild env ord stored hl
    exact .inl (hbuilt.congr hsame.transportServers hsame.globalConfiguration hnew.1 hnew.2)
  have hkept : (call.rebuild env ord stored).1.listenerHosts = c.listenerHosts ∧
      (call.rebuild env ord stored).1.listenerProblems = c.listenerProblems := by
    rw [rebuild, if_neg hl, ← htables.listenerHosts, ← htables.listenerProblems]
    exact listeners_rebuildHostsAfterStartup env ord stored
  have hts := hstores.transportServers_eq (.inl (by simpa using hl))
  have hgc : stored.globalConfiguration = c.globalConfiguration := by
    cases hstores <;> first | rfl | exact absurd rfl hl
  exact .inr (h.congr (hsame.transportServers.trans hts)
    (hsame.globalConfiguration.trans hgc) hkept.1 hkept.2)

/-- After startup a call rebuilds the hosts or leaves them and all they are built from alone. -/
theorem Call.builds_or_keeps_hosts (hstartup : c.startupComplete = true) (ord : Order)
    (call : Call) :
    BuiltHosts env (call.run env ord c).1 ord ∨
      SameHostInputs env c (call.run env ord c).1 ∧ (call.run env ord c).1.hosts = c.hosts ∧
        (call.run env ord c).1.hostProblems = c.hostProblems := by
  obtain ⟨hs, hrun⟩ | ⟨stored, hs, hrun⟩ := run_eq env ord c call
  · rw [hrun]
    exact .inr ⟨⟨rfl, rfl, rfl, fun _ => rfl, rfl, rfl, rfl⟩, rfl, rfl⟩
  rw [hrun.1]
  have hstores := stores_of_store hs
  have htables := hstores.sameTables
  have hstart : stored.startupComplete = true := htables.startupComplete.trans hstartup
  have hrebuilt : ∀ c' : Configuration, c'.startupComplete = true →
      BuiltHosts env (rebuildHostsAfterStartup env ord c').1 ord := by
    intro c' hc'
    rw [rebuildHostsAfterStartup, if_pos hc']
    exact builtHosts_rebuildHosts
  unfold rebuild
  by_cases hl : call.rebuildsListeners = true
  · rw [if_pos hl]
    by_cases hh : call.rebuildsHosts env = true
    · rw [hh, rebuildBoth_true]
      exact .inl (hrebuilt _ hstart)
    -- a TransportServer changed, which the hosts do not depend on
    rw [Bool.eq_false_iff.mpr hh, rebuildBoth_false]
    have hdisabled : ¬ env.isTLSPassthroughEnabled = true :=
      fun henabled => hh (call.rebuildsHosts_of_passthrough henabled)
    have hinputs : SameHostInputs env c (rebuildListenerHosts stored ord).1 := by
      cases hstores <;> first
        | exact ⟨rfl, rfl, rfl, fun henabled => absurd henabled hdisabled, rfl, rfl, rfl⟩
        | exact absurd rfl hh
    exact .inr ⟨hinputs, htables.hosts, htables.hostProblems⟩
  · rw [if_neg hl]
    exact .inl (hrebuilt stored hstart)

theorem BuiltHosts.run (h : BuiltHosts env c o) (hstartup : c.startupComplete = true) (ord : Order)
    (call : Call) :
    BuiltHosts env (call.run env ord c).1 ord ∨ BuiltHosts env (call.run env ord c).1 o := by
  obtain hbuilt | ⟨hinputs, hhosts, hproblems⟩ :=
    builds_or_keeps_hosts hstartup ord call
  · exact .inl hbuilt
  · exact .inr (h.congr hinputs hhosts hproblems)

end Calls

/-! ## Runs of calls -/

def Call.runs (env : Env) (c : Configuration) (steps : List (Order × Call)) : Configuration :=
  steps.foldl (fun c step => (step.2.run env step.1 c).1) c

variable {steps : List (Order × Call)}

/-- What a step gives its order or leaves to an earlier one, some order has after a run. -/
theorem exists_order_runs {env : Env} {Q : Configuration → Order → Prop}
    (hrun : ∀ {c o} ord call, Q c o → Q (run env ord c call).1 ord ∨ Q (run env ord c call).1 o)
    (P : Order → Prop) (hsteps : ∀ step ∈ steps, P step.1) {c : Configuration}
    (h : ∃ o, P o ∧ Q c o) : ∃ o, P o ∧ Q (runs env c steps) o := by
  induction steps generalizing c with
  | nil => exact h
  | cons step steps ih =>
    obtain ⟨o, ho, hbuilt⟩ := h
    apply ih (fun s hs => hsteps s (List.mem_cons_of_mem step hs))
    obtain hnew | hold := hrun step.1 step.2 hbuilt
    · exact ⟨step.1, hsteps step List.mem_cons_self, hnew⟩
    · exact ⟨o, ho, hold⟩

theorem builtHosts_runs {env : Env} (P : Order → Prop) (hsteps : ∀ step ∈ steps, P step.1)
    {c : Configuration} (h : ∃ o, P o ∧ c.startupComplete = true ∧ BuiltHosts env c o) :
    ∃ o, P o ∧ (runs env c steps).startupComplete = true ∧ BuiltHosts env (runs env c steps) o := by
  refine exists_order_runs (Q := fun c o => c.startupComplete = true ∧ BuiltHosts env c o)
    (fun ord call h => ?_) P hsteps h
  rw [← and_or_left, run_startupComplete]
  exact ⟨h.1, h.2.run h.1 ord call⟩

/-- The version of every object that is in effect: none if it was never accepted, if its last
version was rejected or if it was deleted. -/
structure Versions where
  ingress : String → Option Ingress := fun _ => none
  virtualServer : String → Option VirtualServer := fun _ => none
  virtualServerRoute : String → Option VirtualServerRoute := fun _ => none
  transportServer : String → Option TransportServer := fun _ => none
  globalConfiguration : Option GlobalConfiguration := none

section Versions

variable (env : Env)

/-- An object counts if its class is right and it passes validation. -/
def accepted {α : Type} (correctClass : Bool) (validationError : Option String) (a : α) :
    Option α :=
  if correctClass && validationError.isNone then some a else none

/-- The last call about an object decides. -/
def Versions.after (v : Versions) : Call → Versions
  | .addOrUpdateIngress ing => { v with
      ingress := update v.ingress (objectKey ing)
        (accepted (env.hasCorrectIngressClass (.ingress ing)) (env.validateIngress ing) ing) }
  | .deleteIngress key => { v with ingress := update v.ingress key none }
  | .addOrUpdateVirtualServer vs => { v with
      virtualServer := update v.virtualServer (objectKey vs)
        (accepted (env.hasCorrectIngressClass (.virtualServer vs))
          (env.validateVirtualServer vs) vs) }
  | .deleteVirtualServer key => { v with
      virtualServer := update v.virtualServer key none }
  | .addOrUpdateVirtualServerRoute vsr => { v with
      virtualServerRoute := update v.virtualServerRoute (objectKey vsr)
        (accepted (env.hasCorrectIngressClass (.virtualServerRoute vsr))
          (env.validateVirtualServerRoute vsr) vsr) }
  | .deleteVirtualServerRoute key => { v with
      virtualServerRoute := update v.virtualServerRoute key none }
  | .addOrUpdateTransportServer ts => { v with
      transportServer := update v.transportServer (objectKey ts)
        (accepted (env.hasCorrectIngressClass (.transportServer ts))
          (env.validateTransportServer ts) ts) }
  | .deleteTransportServer key => { v with
      transportServer := update v.transportServer key none }
  | .addOrUpdateGlobalConfiguration gc => { v with
      globalConfiguration := some (env.validateGlobalConfiguration gc).1 }
  | .deleteGlobalConfiguration => { v with globalConfiguration := none }

def versions (calls : List Call) : Versions := calls.foldl (Versions.after env) {}

/-- A store holds the versions in their stored form. -/
def StoreHolds {α : Type} [ApiObject α] (stored : α → α) (v : String → Option α) (s : Store α) :
    Prop :=
  ∀ key, s.get key = (v key).map stored

/-- The stores hold the versions; upstreams are stored with their buffers balanced. -/
structure Holds (v : Versions) (c : Configuration) : Prop where
  ingresses : StoreHolds id v.ingress c.ingresses
  virtualServers : StoreHolds (balancedVirtualServer env) v.virtualServer c.virtualServers
  virtualServerRoutes : StoreHolds (balancedVirtualServerRoute env) v.virtualServerRoute
    c.virtualServerRoutes
  transportServers : StoreHolds id v.transportServer c.transportServers
  globalConfiguration : c.globalConfiguration = v.globalConfiguration
  listenerMap : c.listenerMap = (setGlobalConfigListenerMap c).listenerMap
  minions : MinionsIndexed c

variable {env}

theorem Holds.init (startupComplete : Bool) : Holds env {} { startupComplete } where
  ingresses _ := rfl
  virtualServers _ := rfl
  virtualServerRoutes _ := rfl
  transportServers _ := rfl
  globalConfiguration := rfl
  listenerMap := rfl
  minions := MinionsIndexed.init startupComplete

section Store

variable {α : Type} [ApiObject α] {stored : α → α} {v : String → Option α} {s : Store α}
  (h : StoreHolds stored v s)
include h

theorem StoreHolds.put {a : α} (hkey : objectKey (stored a) = objectKey a) {correctClass : Bool}
    {validationError : Option String} (hclass : correctClass = true)
    (hvalid : validationError = none) :
    StoreHolds stored (update v (objectKey a) (accepted correctClass validationError a))
      (s.put (stored a)) := by
  intro key
  rw [Store.get_put, hkey, update_apply]
  by_cases hk : objectKey a = key
  · simp [hk, accepted, hclass, hvalid]
  · rw [if_neg hk, if_neg (Ne.symm hk)]
    exact h key

theorem StoreHolds.remove (key : String) :
    StoreHolds stored (update v key none) (s.remove key) := by
  intro k
  rw [Store.get_remove, update_apply]
  by_cases hk : key = k
  · simp [hk]
  · rw [if_neg hk, if_neg (Ne.symm hk)]
    exact h k

theorem StoreHolds.drop {a : α} {correctClass : Bool} {validationError : Option String}
    (hdrop : ¬ (correctClass = true ∧ validationError = none)) :
    StoreHolds stored (update v (objectKey a) (accepted correctClass validationError a))
      (s.remove (objectKey a)) := by
  have hnone : accepted correctClass validationError a = none := by
    simpa [accepted] using hdrop
  rw [hnone]
  exact h.remove (objectKey a)

theorem StoreHolds.unique {s' : Store α} (h' : StoreHolds stored v s') : s' = s := by
  apply Store.ext
  intro key
  exact (h' key).trans (h key).symm

omit h

end Store

variable {c c' : Configuration} {v : Versions}

theorem Call.Stores.holds {ord : Order} {call : Call}
    (h : Stores env ord c call c') (hc : Holds env v c) : Holds env (v.after env call) c' := by
  have hminions := h.minionsIndexed hc.minions
  cases h with
  | putIngress ing hclass hvalid =>
    exact ⟨hc.1.put rfl hclass hvalid, hc.2, hc.3, hc.4, hc.5, hc.6, hminions⟩
  | dropIngress ing hdrop => exact ⟨hc.1.drop hdrop, hc.2, hc.3, hc.4, hc.5, hc.6, hminions⟩
  | removeIngress key hk => exact ⟨hc.1.remove key, hc.2, hc.3, hc.4, hc.5, hc.6, hminions⟩
  | putVirtualServer vs hclass hvalid =>
    exact ⟨hc.1, hc.2.put rfl hclass hvalid, hc.3, hc.4, hc.5, hc.6, hminions⟩
  | dropVirtualServer vs hdrop => exact ⟨hc.1, hc.2.drop hdrop, hc.3, hc.4, hc.5, hc.6, hminions⟩
  | removeVirtualServer key hk => exact ⟨hc.1, hc.2.remove key, hc.3, hc.4, hc.5, hc.6, hminions⟩
  | putVirtualServerRoute vsr hclass hvalid =>
    exact ⟨hc.1, hc.2, hc.3.put rfl hclass hvalid, hc.4, hc.5, hc.6, hminions⟩
  | dropVirtualServerRoute vsr hdrop =>
    exact ⟨hc.1, hc.2, hc.3.drop hdrop, hc.4, hc.5, hc.6, hminions⟩
  | removeVirtualServerRoute key hk =>
    exact ⟨hc.1, hc.2, hc.3.remove key, hc.4, hc.5, hc.6, hminions⟩
  | putTransportServer ts hclass hvalid =>
    exact ⟨hc.1, hc.2, hc.3, hc.4.put rfl hclass hvalid, hc.5, hc.6, hminions⟩
  | dropTransportServer ts hdrop =>
    exact ⟨hc.1, hc.2, hc.3, hc.4.drop hdrop, hc.5, hc.6, hminions⟩
  | removeTransportServer key hk =>
    exact ⟨hc.1, hc.2, hc.3, hc.4.remove key, hc.5, hc.6, hminions⟩
  | setListeners | clearListeners => exact ⟨hc.1, hc.2, hc.3, hc.4, rfl, rfl, hminions⟩

theorem Holds.of_store_eq_none {ord : Order} {call : Call}
    (hc : Holds env v c) (h : call.store env ord c = none) : Holds env (v.after env call) c := by
  have hkeep : ∀ {α : Type} [ApiObject α] {stored : α → α} {f : String → Option α} {s : Store α}
      {key : String}, StoreHolds stored f s → ¬ (s.get key).isSome = true →
        StoreHolds stored (update f key none) s := by
    intro α _ stored f s key hs hnot k
    rw [update_apply]
    by_cases hk : k = key
    · rw [if_pos hk, hk]
      simpa using hnot
    · rw [if_neg hk]
      exact hs k
  cases call with
  | deleteIngress key =>
    exact ⟨hkeep hc.1 (by simpa [store] using h), hc.2, hc.3, hc.4, hc.5, hc.6, hc.7⟩
  | deleteVirtualServer key =>
    exact ⟨hc.1, hkeep hc.2 (by simpa [store] using h), hc.3, hc.4, hc.5, hc.6, hc.7⟩
  | deleteVirtualServerRoute key =>
    exact ⟨hc.1, hc.2, hkeep hc.3 (by simpa [store] using h), hc.4, hc.5, hc.6, hc.7⟩
  | deleteTransportServer key =>
    exact ⟨hc.1, hc.2, hc.3, hkeep hc.4 (by simpa [store] using h), hc.5, hc.6, hc.7⟩
  | addOrUpdateIngress | addOrUpdateVirtualServer | addOrUpdateVirtualServerRoute
  | addOrUpdateTransportServer | addOrUpdateGlobalConfiguration | deleteGlobalConfiguration =>
    cases h

theorem Holds.congr (h : Holds env v c) (hsame : SameStores c c') : Holds env v c' := by
  cases c
  cases c'
  obtain ⟨hing, hvs, hvsr, hts, hminions, hgc, hmap⟩ := hsame
  simp only at hing hvs hvsr hts hminions hgc hmap
  subst hing hvs hvsr hts hminions hgc hmap
  exact ⟨h.1, h.2, h.3, h.4, h.5, h.6, h.7⟩

theorem Holds.run (h : Holds env v c) (ord : Order)
    (call : Call) : Holds env (v.after env call) (call.run env ord c).1 := by
  obtain ⟨hs, hrun⟩ | ⟨stored, hs, hrun⟩ := run_eq env ord c call
  · rw [hrun]
    exact h.of_store_eq_none hs
  · rw [hrun.1]
    exact ((stores_of_store hs).holds h).congr (call.sameStores_rebuild env ord stored)

theorem holds_runs (env : Env) (startupComplete : Bool) (steps : List (Order × Call)) :
    Holds env (versions env (steps.map Prod.snd)) (runs env { startupComplete } steps) := by
  have hgeneral : ∀ {c : Configuration} {v : Versions}, Holds env v c →
      Holds env ((steps.map Prod.snd).foldl (Versions.after env) v) (runs env c steps) := by
    induction steps with
    | nil => exact fun h => h
    | cons step steps ih => exact fun h => ih (h.run step.1 step.2)
  exact hgeneral (Holds.init startupComplete)

theorem Holds.sameStores (h : Holds env v c) (h' : Holds env v c') : SameStores c c' := by
  have hgc := h'.globalConfiguration.trans h.globalConfiguration.symm
  have hing := h.ingresses.unique h'.ingresses
  refine ⟨hing, h.virtualServers.unique h'.virtualServers,
    h.virtualServerRoutes.unique h'.virtualServerRoutes,
    h.transportServers.unique h'.transportServers, ?_, hgc, ?_⟩
  · have hminions := h'.minions
    rw [MinionsIndexed, hing] at hminions
    exact hminions.unique h.minions
  · rw [h.listenerMap, h'.listenerMap]
    simp only [setGlobalConfigListenerMap, hgc]

end Versions

/-- The listeners in one order and the hosts in another. -/
def mixedOrder (listeners hosts : Order) : Order where
  visit
    | .transportServers, keys => listeners.visit .transportServers keys
    | loop, keys => hosts.visit loop keys
  perm loop keys := by
    cases loop with
    | transportServers => exact listeners.perm _ _
    | _ => exact hosts.perm _ _

theorem mixedOrder_self (ord : Order) : mixedOrder ord ord = ord := by
  obtain ⟨visit, perm⟩ := ord
  unfold mixedOrder
  congr
  funext loop keys
  cases loop <;> rfl

section Outcomes

variable (env : Env) (calls : List Call)

/-- What a run after startup can leave, over all visiting orders. -/
def eagerOutcomes : Set Tables :=
  { t | ∃ steps : List (Order × Call), steps.map Prod.snd = calls ∧
    t = (runs env { startupComplete := true } steps).tables }

/-- What a run during startup and its end can leave. -/
def deferredOutcomes : Set Tables :=
  { t | ∃ (steps : List (Order × Call)) (ord : Order), steps.map Prod.snd = calls ∧
    t = (completeStartup env ord (runs env {} steps)).1.tables }

variable {env calls} {c₀ : Configuration}

theorem tables_eq_built {c : Configuration} {v : Versions} {oh ol : Order}
    (hc : Holds env v c) (hc₀ : Holds env v c₀) (hhosts : BuiltHosts env c oh)
    (hlisteners : BuiltListeners c ol) :
    c.tables = builtTables env (mixedOrder ol oh) c₀ := by
  have hbuilt : c.tables = builtTables env (mixedOrder ol oh) c := by
    rw [tables, hhosts.hosts, hhosts.problems, hlisteners.listenerHosts, hlisteners.problems]
    rfl
  rw [hbuilt, builtTables_congr (hc₀.sameStores hc)]

/-- Rebuilding all along leaves tables that the last versions give. -/
theorem tables_runs_eager (hc₀ : Holds env (versions env calls) c₀) (P : Order → Prop) (o : Order)
    (ho : P o) (hcalls : steps.map Prod.snd = calls) (hsteps : ∀ step ∈ steps, P step.1) :
    ∃ ol oh, P ol ∧ P oh ∧ (runs env { startupComplete := true } steps).tables =
      builtTables env (mixedOrder ol oh) c₀ := by
  have hheld := holds_runs env true steps
  rw [hcalls] at hheld
  obtain ⟨oh, hoh, -, hhosts⟩ := builtHosts_runs P hsteps
    ⟨o, ho, rfl, builtHosts_init env o true⟩
  obtain ⟨ol, hol, hlisteners⟩ := exists_order_runs (Q := BuiltListeners)
    (fun ord call h => h.run env ord call) P hsteps ⟨o, ho, builtListeners_init o true⟩
  exact ⟨ol, oh, hol, hoh, tables_eq_built hheld hc₀ hhosts hlisteners⟩

/-- So does rebuilding once, when startup is complete. -/
theorem tables_runs_deferred (hc₀ : Holds env (versions env calls) c₀) (P : Order → Prop)
    (o : Order) (ho : P o) (hcalls : steps.map Prod.snd = calls)
    (hsteps : ∀ step ∈ steps, P step.1) :
    ∃ ol, P ol ∧ (completeStartup env o (runs env {} steps)).1.tables =
      builtTables env (mixedOrder ol o) c₀ := by
  have hheld := holds_runs env false steps
  rw [hcalls] at hheld
  obtain ⟨ol, hol, hlisteners⟩ := exists_order_runs (Q := BuiltListeners)
    (fun ord call h => h.run env ord call) P hsteps ⟨o, ho, builtListeners_init o false⟩
  set c := runs env {} steps with hc
  have hstarted : SameStores c (completeStartup env o c).1 := ⟨rfl, rfl, rfl, rfl, rfl, rfl, rfl⟩
  have hhosts : BuiltHosts env (completeStartup env o c).1 o := builtHosts_rebuildHosts
  have hkept : BuiltListeners (completeStartup env o c).1 ol := hlisteners.congr rfl rfl rfl rfl
  exact ⟨ol, hol, tables_eq_built (hheld.congr hstarted) hc₀ hhosts hkept⟩

def inOrder (ord : Order) (calls : List Call) : List (Order × Call) :=
  calls.map fun call => (ord, call)

theorem calls_inOrder (ord : Order) (calls : List Call) :
    (inOrder ord calls).map Prod.snd = calls := by
  simp [inOrder]

theorem order_inOrder {ord : Order} {calls : List Call} :
    ∀ step ∈ inOrder ord calls, step.1 = ord := by
  simp [inOrder]

theorem exists_holds (env : Env) (calls : List Call) : ∃ c, Holds env (versions env calls) c := by
  have hheld := holds_runs env false (inOrder .asGiven calls)
  rw [calls_inOrder] at hheld
  exact ⟨_, hheld⟩

variable (hc₀ : Holds env (versions env calls) c₀)
include hc₀

theorem tables_inOrder_eager (ord : Order) :
    (runs env { startupComplete := true } (inOrder ord calls)).tables =
      builtTables env ord c₀ := by
  obtain ⟨ol, oh, hol, hoh, htables⟩ := tables_runs_eager hc₀ (· = ord) ord rfl
    (calls_inOrder ord calls) order_inOrder
  rw [htables, hol, hoh, mixedOrder_self]

theorem tables_inOrder_deferred (ord : Order) :
    (completeStartup env ord (runs env {} (inOrder ord calls))).1.tables =
      builtTables env ord c₀ := by
  obtain ⟨ol, hol, htables⟩ := tables_runs_deferred hc₀ (· = ord) ord rfl
    (calls_inOrder ord calls) order_inOrder
  rw [htables, hol, mixedOrder_self]

theorem mem_eagerOutcomes {t : Tables} :
    t ∈ eagerOutcomes env calls ↔ ∃ ord, t = builtTables env ord c₀ := by
  constructor
  · rintro ⟨steps, hcalls, rfl⟩
    obtain ⟨ol, oh, -, -, htables⟩ := tables_runs_eager hc₀ (fun _ => True) .asGiven trivial hcalls
      (fun _ _ => trivial)
    exact ⟨_, htables⟩
  · rintro ⟨ord, rfl⟩
    exact ⟨inOrder ord calls, calls_inOrder ord calls, (tables_inOrder_eager hc₀ ord).symm⟩

theorem mem_deferredOutcomes {t : Tables} :
    t ∈ deferredOutcomes env calls ↔ ∃ ord, t = builtTables env ord c₀ := by
  constructor
  · rintro ⟨steps, ord, hcalls, rfl⟩
    obtain ⟨ol, -, htables⟩ := tables_runs_deferred hc₀ (fun _ => True) ord trivial hcalls
      (fun _ _ => trivial)
    exact ⟨_, htables⟩
  · rintro ⟨ord, rfl⟩
    exact ⟨inOrder ord calls, ord, calls_inOrder ord calls, (tables_inOrder_deferred hc₀ ord).symm⟩

omit hc₀

/-- Deferring the rebuilds to the end of startup leaves the tables that rebuilding all along leaves:
the same possible tables over all visiting orders and, in any one order, the same tables. They
depend on the last accepted versions only. -/
theorem deferred_startup_leaves_eager_tables (env : Env) (calls : List Call) :
    deferredOutcomes env calls = eagerOutcomes env calls ∧
      (∀ ord, (completeStartup env ord (runs env {} (inOrder ord calls))).1.tables =
        (runs env { startupComplete := true } (inOrder ord calls)).tables) ∧
      ∀ calls', versions env calls' = versions env calls →
        eagerOutcomes env calls' = eagerOutcomes env calls := by
  obtain ⟨c₀, hc₀⟩ := exists_holds env calls
  refine ⟨?_, fun ord => ?_, fun calls' hversions => ?_⟩
  · ext t
    rw [mem_deferredOutcomes hc₀, mem_eagerOutcomes hc₀]
  · rw [tables_inOrder_deferred hc₀, tables_inOrder_eager hc₀]
  · ext t
    have hc₀' : Holds env (versions env calls') c₀ := hversions.symm ▸ hc₀
    rw [mem_eagerOutcomes hc₀', mem_eagerOutcomes hc₀]

/-- The order of calls about different objects does not matter. -/
theorem deferred_startup_leaves_eager_tables_swapped :
    versions (Env.permissive true) [.addOrUpdateIngress cafeIngress,
        .addOrUpdateVirtualServer cafeVirtualServer] =
      versions (Env.permissive true) [.addOrUpdateVirtualServer cafeVirtualServer,
        .deleteTransportServer "default/cafe", .addOrUpdateIngress cafeIngress] ∧
    eagerOutcomes (Env.permissive true) [.addOrUpdateIngress cafeIngress,
        .addOrUpdateVirtualServer cafeVirtualServer] =
      eagerOutcomes (Env.permissive true) [.addOrUpdateVirtualServer cafeVirtualServer,
        .deleteTransportServer "default/cafe", .addOrUpdateIngress cafeIngress] := by
  refine ⟨?_, (deferred_startup_leaves_eager_tables _ _).2.2 _ ?_⟩ <;>
    simp [versions, Versions.after]

end Outcomes

/-! ## Coalesced calls

The work queue holds kinds and keys. Changes of an object that arrive before its task is synced lead
to one call. -/

/-- The kind and the key of the task that leads to a call. -/
def Call.task : Call → String × String
  | .addOrUpdateIngress ing => (ingressKind, objectKey ing)
  | .deleteIngress key => (ingressKind, key)
  | .addOrUpdateVirtualServer vs => (virtualServerKind, objectKey vs)
  | .deleteVirtualServer key => (virtualServerKind, key)
  | .addOrUpdateVirtualServerRoute vsr => (virtualServerRouteKind, objectKey vsr)
  | .deleteVirtualServerRoute key => (virtualServerRouteKind, key)
  | .addOrUpdateTransportServer ts => (transportServerKind, objectKey ts)
  | .deleteTransportServer key => (transportServerKind, key)
  | .addOrUpdateGlobalConfiguration _ | .deleteGlobalConfiguration => ("GlobalConfiguration", "")

variable {env : Env} {v : Versions} {call call' : Call}

theorem Versions.after_same (h : call.task = call'.task) :
    (v.after env call).after env call' = v.after env call' := by
  cases call <;> cases call' <;>
    simp_all [Call.task, after, ingressKind, virtualServerKind, virtualServerRouteKind,
      transportServerKind]

theorem Versions.after_comm (h : call.task ≠ call'.task) :
    (v.after env call).after env call' = (v.after env call').after env call := by
  cases call <;> cases call' <;> simp_all [Call.task, after] <;> exact Function.update_comm h ..

theorem versions_superseded (h : call.task = call'.task) (before between later : List Call) :
    versions env (before ++ call :: between ++ call' :: later) =
      versions env (before ++ between ++ call' :: later) := by
  -- the call moves on until it meets a call for its own object
  induction between generalizing before with
  | nil => simp [versions, Versions.after_same h]
  | cons c between ih =>
    by_cases hc : call.task = c.task
    · simp [versions, Versions.after_same hc]
    · simpa [versions, Versions.after_comm hc] using ih (before ++ [c])

/-- Without the call for a superseded version the same tables are possible. -/
theorem superseded_call_leaves_no_trace (env : Env) (before between later : List Call)
    (h : call.task = call'.task) :
    eagerOutcomes env (before ++ call :: between ++ call' :: later) =
      eagerOutcomes env (before ++ between ++ call' :: later) := by
  obtain ⟨c₀, hc₀⟩ := exists_holds env (before ++ between ++ call' :: later)
  ext t
  rw [mem_eagerOutcomes hc₀, mem_eagerOutcomes (versions_superseded h before between later ▸ hc₀)]

theorem superseded_call_leaves_no_trace_cafe :
    let delete := Call.deleteVirtualServer (objectKey cafeVirtualServer)
    eagerOutcomes (.permissive true) [.addOrUpdateVirtualServer cafeVirtualServer,
        .addOrUpdateIngress cafeIngress, delete] =
      eagerOutcomes (.permissive true) [.addOrUpdateIngress cafeIngress, delete] :=
  superseded_call_leaves_no_trace _ [] [_] [] rfl

end IngressController
