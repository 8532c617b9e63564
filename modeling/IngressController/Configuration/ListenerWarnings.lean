import IngressController.Configuration.LatestChanges
import IngressController.Configuration.SilentDrops

/-! # Warnings about listeners

A VirtualServer that refers to its listeners wrongly is warned through the host table, so the
warning reaches the holder of its host, whoever that is.
-/

namespace IngressController.Configuration

open Resource List

/-- There is no GlobalConfiguration, a listener is in the wrong block, or a named one is missing. -/
def RefersWrongly (c : Configuration) (l : VirtualServerListener) : Prop :=
  c.globalConfiguration = none ∨
    (∃ listener, c.listenerMap[l.http]? = some listener ∧ listener.ssl = true) ∨
    (∃ listener, c.listenerMap[l.https]? = some listener ∧ listener.ssl = false) ∨
    (l.http ≠ "" ∧ c.listenerMap[l.http]? = none) ∨ (l.https ≠ "" ∧ c.listenerMap[l.https]? = none)

def Misconfigured (c : Configuration) (vs : VirtualServer) : Prop :=
  ∃ l, vs.spec.listener = some l ∧ RefersWrongly c l

def IsListenerWarning (w : String) : Prop := ∃ c l, listenerWarning c l = some w

variable {c : Configuration}

theorem listenerWarning_isSome {l : VirtualServerListener} :
    (listenerWarning c l).isSome ↔ RefersWrongly c l := by
  unfold listenerWarning RefersWrongly isListenerInCorrectBlock
  cases c.globalConfiguration with
  | none => simp
  | some gc =>
    cases c.listenerMap[l.http]? <;> cases c.listenerMap[l.https]? <;>
      simp [apply_ite Option.isSome]

theorem IsListenerWarning.head {w : String} (h : IsListenerWarning w) :
    w.toList.head? = some 'L' := by
  obtain ⟨c, l, h⟩ := h
  unfold listenerWarning at h
  split_ifs at h <;> cases h
  · decide
  all_goals exact head?_append (head?_append (by decide) _) _

/-- The warning an object gives rise to, with the holder of its host. -/
def raised (c : Configuration) (hosts : GoMap String) :
    ConfigurationObject → Option (String × String)
  | .virtualServer vs => (vs.spec.listener.bind (listenerWarning c)).bind fun w =>
      hosts[vs.spec.host]?.map fun holder => (holder, w)
  | _ => none

variable {hosts : GoMap String} {t : GoMap Resource} {r : Resource} {key w : String}

theorem addWarnings_singleton (k : String) :
    addWarningsForVirtualServersWithMissConfiguredListeners c [k] hosts t =
      match (t[k]?.map object).bind (raised c hosts) with
      | some (holder, warning) => t.modify holder (addWarning warning)
      | none => t := by
  simp only [addWarningsForVirtualServersWithMissConfiguredListeners, foldl_cons, foldl_nil]
  cases t[k]? with
  | none => rfl
  | some r =>
    cases r with
    | virtualServer vsc =>
      simp only [Option.map_some, Option.bind_some, object, raised]
      cases vsc.virtualServer.spec.listener.bind (listenerWarning c) with
      | none => rfl
      | some w => cases hosts[vsc.virtualServer.spec.host]? <;> rfl
    | ingress | transportServer => rfl

/-- A resource gains the warnings whose holder it is. -/
theorem mem_warnings_addWarnings {order : List String}
    (hr : (addWarningsForVirtualServersWithMissConfiguredListeners c order hosts t)[key]? =
      some r) :
    ∃ r₀, t[key]? = some r₀ ∧ (w ∈ r.warnings ↔
      w ∈ r₀.warnings ∨ ∃ k ∈ order, (t[k]?.map object).bind (raised c hosts) = some (key, w)) := by
  induction order using reverseRecOn generalizing r with
  | nil => exact ⟨r, hr, by simp⟩
  | append_singleton order k ih =>
    rw [addWarningsForVirtualServersWithMissConfiguredListeners, foldl_append] at hr
    have hsame := sameUpToWarnings_addWarnings c order hosts t
    replace hr := (congrArg (·[key]?) (addWarnings_singleton k)).symm.trans hr
    rw [← addWarningsForVirtualServersWithMissConfiguredListeners, hsame.map_object k] at hr
    simp only [mem_append, mem_singleton, or_and_right, exists_or, exists_eq_left, ← or_assoc]
    cases hraised : (t[k]?.map object).bind (raised c hosts) with
    | none =>
      rw [hraised] at hr
      simpa using ih hr
    | some e =>
      obtain ⟨holder, warning⟩ := e
      simp only [hraised, Table.get_modify] at hr
      split at hr
      · rename_i hholder
        obtain ⟨r₁, hr₁, rfl⟩ := Option.map_eq_some_iff.mp hr
        obtain ⟨r₀, hr₀, hw⟩ := ih hr₁
        exact ⟨r₀, hr₀, by simp [hw, hholder, eq_comm]⟩
      · rename_i hholder
        obtain ⟨r₀, hr₀, hw⟩ := ih hr
        exact ⟨r₀, hr₀, by simp [hw, hholder]⟩

def ListenerWarned (r : Resource) : Prop := ∃ w ∈ r.warnings, IsListenerWarning w

section

variable {env : Env} {ord : Order} (hok : StoresOk env c)
include hok

theorem not_listenerWarned_newResource (hr : (newResources env c ord)[key]? = some r) :
    ¬ ListenerWarned r := by
  rintro ⟨w, hw, hlistener⟩
  obtain ⟨r₀, hr₀, rfl⟩ := get_newResources.mp hr
  obtain ⟨hname, e, he, hcore⟩ := build_resource hok.ingresses hr₀
  obtain ⟨r₁, hr₁, -, hwarnings⟩ := build_contender hok.ingresses he
  rw [← name_of_bare hcore, hname, hr₀, Option.some.injEq] at hr₁
  rw [warnings_activate, hr₁, hwarnings.mem_iff, mem_append, mem_map] at hw
  have hhead := hlistener.head
  obtain hroute | ⟨host, -, rfl⟩ := hw
  · rcases routeWarnings_hostClaims env c ord he w hroute with h | h <;> simp [hhead] at h
  · simp [head_hostTaken] at hhead

theorem holdsHost_iff_hosts {x : ConfigurationObject} (hx : Stored c x) {host : String} :
    HoldsHost env c ord host x ↔
      (buildHostsAndResources env c ord).hosts[host]? = some x.keyWithKind := by
  refine ((settled_build hok.ingresses).champion_iff fun _ _ => object_of_bare).trans ?_
  constructor
  · rintro ⟨key, r, hkey, hr, rfl⟩
    rw [← getKeyWithKind_eq, (build_resource hok.ingresses hr).1]
    exact hkey
  · intro hkey
    obtain ⟨r, hr, hname, hclaims⟩ := build_holder hok.ingresses hkey
    exact ⟨_, r, hkey, hr, hclaims.stored.eq_of_name hx (by rw [← getKeyWithKind_eq, hname])⟩

/-- A resource is warned for the misconfigured VirtualServers whose host it holds. -/
theorem listenerWarned_iff (hr : (warnedResources env c ord)[key]? = some r) :
    ListenerWarned r ↔ ∃ vs, Stored c (.virtualServer vs) ∧ Misconfigured c vs ∧
      HoldsHost env c ord vs.spec.host r.object := by
  obtain ⟨_, hclaims⟩ := claimsHost_of_warnedResource hok hr
  have hname := (getKeyWithKind_eq r).symm.trans (name_of_get_warnedResources hok.ingresses hr)
  simp only [holdsHost_iff_hosts hok hclaims.stored, hname]
  constructor
  · rintro ⟨w, hw, hlistener⟩
    obtain ⟨r₀, hr₀, hiff⟩ := mem_warnings_addWarnings (w := w) hr
    obtain hold | ⟨k, -, hraised⟩ := hiff.mp hw
    · exact absurd ⟨w, hold, hlistener⟩ (not_listenerWarned_newResource hok hr₀)
    obtain ⟨x, hx, hraised⟩ := Option.bind_eq_some_iff.mp hraised
    obtain ⟨r', hr', rfl⟩ := Option.map_eq_some_iff.mp hx
    obtain ⟨host, hclaims⟩ := claimsHost_of_newResource hok hr'
    cases r' with
    | virtualServer vsc =>
      obtain ⟨w', hw', hraised⟩ := Option.bind_eq_some_iff.mp hraised
      obtain ⟨l, hl, hwarning⟩ := Option.bind_eq_some_iff.mp hw'
      obtain ⟨holder, hholder, heq⟩ := Option.map_eq_some_iff.mp hraised
      cases heq
      exact ⟨vsc.virtualServer, hclaims.stored,
        ⟨l, hl, listenerWarning_isSome.mp (by rw [hwarning]; rfl)⟩, hholder⟩
    | ingress | transportServer => cases hraised
  · rintro ⟨vs, hstored, ⟨l, hl, hwrong⟩, hholder⟩
    obtain ⟨w, hw⟩ := Option.isSome_iff_exists.mp (listenerWarning_isSome.mpr hwrong)
    obtain ⟨r', hr', hobject⟩ : ∃ r', (newResources env c ord)[_]? = some r' ∧ _ :=
      newResource_of_claimsHost hok (x := .virtualServer vs) ⟨hstored, rfl⟩
    obtain ⟨_, -, hiff⟩ := mem_warnings_addWarnings (w := w) hr
    have hkey := Table.mem_keys_iff.mpr ⟨r', hr'⟩
    refine ⟨w, hiff.mpr (.inr ⟨_, (IterOrder.mem_visit ..).mpr hkey, ?_⟩), c, l, hw⟩
    simp [hr', hobject, raised, hl, hw, hholder]

end

/-- After a rebuild, exactly the misconfigured VirtualServers are warned about listeners. -/
def WarnsMisconfigured (env : Env) (c : Configuration) (ord : Order) : Prop :=
  ∀ (key : String) r, (warnedResources env c ord)[key]? = some r →
    (ListenerWarned r ↔ ∃ vs, r.object = .virtualServer vs ∧ Misconfigured c vs)

/-- The warnings go where they belong exactly if misconfigured VirtualServers hold their hosts. -/
theorem warnsMisconfigured_iff {env : Env} (hreach : Reachable env c) (ord : Order) :
    WarnsMisconfigured env c ord ↔ ∀ vs, Stored c (.virtualServer vs) → Misconfigured c vs →
      HoldsHost env c ord vs.spec.host (.virtualServer vs) := by
  have hok := hreach.tablesOk.stores
  constructor
  · intro h vs hstored hwrong
    have hclaims : ClaimsHost env c vs.spec.host (.virtualServer vs) := ⟨hstored, rfl⟩
    obtain ⟨r, hr⟩ := (exists_warnedResource_iff hok).mpr ⟨_, _, hclaims, rfl⟩
    obtain ⟨_, hclaimed⟩ := claimsHost_of_warnedResource hok hr
    have hobject := hclaimed.stored.eq_of_name hstored
      ((getKeyWithKind_eq r).symm.trans (name_of_get_warnedResources hok.ingresses hr))
    obtain ⟨vs', -, -, hholds⟩ :=
      (listenerWarned_iff hok hr).mp ((h _ r hr).mpr ⟨vs, hobject, hwrong⟩)
    rw [hobject] at hholds
    -- the VirtualServer holds the host of the other one, so the hosts are the same
    obtain ⟨r', hr', hobject'⟩ := (exists_newHosts_iff hok).mp hholds
    have hhost := claimsHost_newHosts hok.ingresses hr'
    rw [hobject'] at hhost
    exact hhost.2 ▸ hholds
  · intro h key r hr
    rw [listenerWarned_iff hok hr]
    constructor
    · rintro ⟨vs, hstored, hwrong, hholds⟩
      exact ⟨vs, hholds.unique (h vs hstored hwrong), hwrong⟩
    · rintro ⟨vs, hobject, hwrong⟩
      obtain ⟨_, hclaims⟩ := claimsHost_of_warnedResource hok hr
      rw [hobject] at hclaims ⊢
      exact ⟨vs, hclaims.stored, hwrong, h vs hclaims.stored hwrong⟩

def listeningVirtualServer : VirtualServer :=
  { cafeVirtualServer with spec.listener := some { http := "dev" } }

def elderIngress : Ingress :=
  { cafeIngress with objectMeta.creationTimestamp := 50 }

/-- The VirtualServer refers to a listener, but there is no GlobalConfiguration. -/
def listening (others : List Ingress) : Configuration :=
  Op.runs (Env.permissive false) {} <|
    others.map (fun ing => (.asGiven, .api (.addOrUpdateIngress ing))) ++
      [(.asGiven, .api (.addOrUpdateVirtualServer listeningVirtualServer))]

/-- The Ingress is younger than the VirtualServer. -/
theorem warnsMisconfigured_listening :
    WarnsMisconfigured (Env.permissive false) (listening [cafeIngress]) .asGiven := by
  have hreach : Reachable (Env.permissive false) (listening [cafeIngress]) := Reachable.init.runs _
  refine (warnsMisconfigured_iff hreach .asGiven).mpr fun vs hstored _ => ?_
  have hget : (Store.empty.put listeningVirtualServer).get (objectKey vs) = some vs := hstored
  simp only [Store.get_put, Store.get_empty, Option.ite_none_right_eq_some,
    Option.some.injEq] at hget
  rw [← hget.2, holdsHost_iff_hosts hreach.tablesOk.stores (hget.2 ▸ hstored)]
  decide +kernel

/-- The elder Ingress holds the host and is warned about the listeners of the VirtualServer. -/
theorem elder_ingress_is_warned : Reachable (Env.permissive false) (listening [elderIngress]) ∧
    ¬ WarnsMisconfigured (Env.permissive false) (listening [elderIngress]) .asGiven := by
  refine ⟨Reachable.init.runs _, fun h => ?_⟩
  have hwarned : (warnedResources (Env.permissive false) (listening [elderIngress]) .asGiven)[
      (ConfigurationObject.ingress elderIngress).keyWithKind]?.map
        (fun r => (r.object, r.warnings)) =
      some (.ingress elderIngress, (listenerWarning {} {}).toList) := by
    decide +kernel
  obtain ⟨r, hr, heq⟩ := Option.map_eq_some_iff.mp hwarned
  obtain ⟨hobject, hwarnings⟩ := Prod.mk.inj heq
  obtain ⟨vs, hvs, -⟩ := (h _ r hr).mp ⟨_, hwarnings ▸ mem_singleton_self _, {}, {}, rfl⟩
  rw [hobject] at hvs
  cases hvs

end IngressController.Configuration
