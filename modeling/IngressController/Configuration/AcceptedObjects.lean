import IngressController.Configuration.Rendered
import IngressController.Validation.BalancedSizes

/-! # Stored objects and the validator

With the validator of VirtualServers and VirtualServerRoutes in place of the abstract one,
this module says which steps keep every stored object, and every host, free of rejected
objects. Balancing changes an object after its validation, and the weight path of
VirtualServers stores an object whose validation failed.
-/

namespace IngressController

open IngressController.Configuration ChangeLog Validation Op List

/-- The environment with the validator of `pkg/apis/configuration/validation`. -/
def Env.validatedBy (env : Env) (vsv : VirtualServerValidator) : Env :=
  { env with
    validateVirtualServer := vsv.validateVirtualServer
    validateVirtualServerRoute := vsv.validateVirtualServerRoute
    validateVirtualServerRouteForVirtualServer := vsv.validateVirtualServerRouteForVirtualServer }

namespace Store

variable {α : Type} [ApiObject α] {p : α → Prop} {s : Store α}

def All (p : α → Prop) (s : Store α) : Prop := ∀ k a, s.get k = some a → p a

theorem All.remove (h : s.All p) (k : String) : (s.remove k).All p := by
  intro k' a ha
  rw [get_remove] at ha
  split at ha
  · cases ha
  · exact h k' a ha

theorem All.put (h : s.All p) (a : α) : (s.put a).All p ↔ p a := by
  constructor
  · exact fun hall => hall (objectKey a) a (by simp)
  intro ha k b hb
  rw [get_put] at hb
  split at hb
  · cases hb
    exact ha
  · exact h k b hb

end Store

structure StoresAccepted (env : Env) (c : Configuration) : Prop where
  virtualServers : c.virtualServers.All fun vs => env.validateVirtualServer vs = none
  virtualServerRoutes : c.virtualServerRoutes.All fun vsr =>
    env.validateVirtualServerRoute vsr = none

variable (env : Env)

/-- All objects of a resource are accepted. A route can also stand for an accepted challenge
Ingress. -/
def MadeOfAccepted : Resource → Prop
  | .virtualServer vsc => env.validateVirtualServer vsc.virtualServer = none ∧
      ∀ v ∈ vsc.virtualServerRoutes, env.validateVirtualServerRoute v = none ∨
        ∃ s ing, env.validateIngress ing = none ∧ challengeVSR env s ing = some v
  | .ingress ic => env.validateIngress ic.ingress = none ∧
      ∀ m ∈ ic.minions, env.validateIngress m.ingress = none
  | .transportServer tsc => env.validateTransportServer tsc.transportServer = none

/-- Stores and hosts are free of rejected objects. -/
structure Validated (env : Env) (c : Configuration) : Prop extends StoresAccepted env c where
  hosts : ∀ (h : String) r, c.hosts[h]? = some r → MadeOfAccepted env r

/-- Rebuilding finds every host as it was. -/
def HostsStay (ord : Order) (s : Configuration) : Prop :=
  let detected := detectChangesInHosts s.hosts (newHosts env s ord)
  detected.removed = [] ∧ detected.updated = [] ∧ detected.added = []

/-- Balancing gives sizes the validator reads, and a rejected VirtualServer of the weight path
was not active. -/
def Op.KeepsAccepted (ord : Order) (c : Configuration) : Op → Prop
  | .api (.addOrUpdateVirtualServer vs) =>
    env.hasCorrectIngressClass (.virtualServer vs) = true → env.validateVirtualServer vs = none →
      env.isDirectiveAutoadjustEnabled = true → ∀ u ∈ vs.spec.upstreams, fitsUnits u = true
  | .api (.addOrUpdateVirtualServerRoute vsr) =>
    env.hasCorrectIngressClass (.virtualServerRoute vsr) = true →
      env.validateVirtualServerRoute vsr = none →
      env.isDirectiveAutoadjustEnabled = true → ∀ u ∈ vsr.spec.upstreams, fitsUnits u = true
  | .haltIfVSConfigInvalid vsNew =>
    env.validateVirtualServer vsNew = none ∨
      HostsStay env ord { c with virtualServers := c.virtualServers.remove (objectKey vsNew) }
  | _ => True

theorem changes_rebuildHosts_eq_nil (s : Configuration) (ord : Order) :
    (rebuildHosts env s ord).2.1 = [] ↔ HostsStay env ord s := by
  simp only [rebuildHosts, referToLatest, map_eq_nil_iff, squashResourceChanges_eq_nil,
    createResourceChangesForHosts, createResourceChanges, append_eq_nil_iff, HostsStay]
  constructor
  · rintro ⟨hdeletes, hupdates⟩
    rw [deleteChanges, append_eq_nil_iff, filterMap_eq_nil_iff] at hdeletes
    rw [updateChanges, filterMap_eq_nil_iff] at hupdates
    refine ⟨?_, ?_, ?_⟩ <;> rw [eq_nil_iff_forall_not_mem] <;> intro h hh
    · obtain ⟨⟨o, ho⟩, -⟩ := mem_removed.mp hh
      simpa [ho] using hdeletes.1 h hh
    · obtain ⟨o, n, -, hn, -⟩ := mem_updated.mp hh
      simpa [hn] using hupdates h (mem_append_left _ hh)
    · obtain ⟨-, n, hn⟩ := mem_added.mp hh
      simpa [hn] using hupdates h (mem_append_right _ hh)
  · rintro ⟨hremoved, hupdated, hadded⟩
    simp [deleteChanges, updateChanges, hremoved, hupdated, hadded]

section Steps

variable {env : Env} {c s : Configuration}

theorem StoresAccepted.congr (h : StoresAccepted env c) (hvs : s.virtualServers = c.virtualServers)
    (hvsr : s.virtualServerRoutes = c.virtualServerRoutes) : StoresAccepted env s :=
  ⟨hvs ▸ h.virtualServers, hvsr ▸ h.virtualServerRoutes⟩

theorem SameStores.accepted_iff (h : SameStores c s) :
    StoresAccepted env s ↔ StoresAccepted env c :=
  ⟨fun hs => hs.congr h.virtualServers.symm h.virtualServerRoutes.symm,
    fun hc => hc.congr h.virtualServers h.virtualServerRoutes⟩

/-- What is built from accepted objects is made of them. -/
theorem StoresAccepted.madeOfAccepted (h : StoresAccepted env s) (hok : StoresOk env s)
    {r : Resource} (hr : KindBuilt env s r) : MadeOfAccepted env r := by
  cases r with
  | ingress ic =>
    exact ⟨hok.ingresses _ hr.stored, fun m hm => hok.ingresses _ (hr.minionsStored m hm)⟩
  | transportServer tsc => exact hok.transportServers _ hr.stored
  | virtualServer vsc =>
    refine ⟨h.virtualServers _ _ hr.stored, fun v hv => ?_⟩
    obtain hstored | hchallenge := hr.routes v hv
    · exact .inl (h.virtualServerRoutes _ _ hstored)
    · obtain ⟨ing, hing, hv⟩ := mem_filterMap.mp hchallenge
      split at hv
      · cases hv
      · exact .inr ⟨s, ing, hok.ingresses ing (Store.mem_sorted.mp hing), hv⟩

/-- The weight path stores a rejected VirtualServer if rebuilding without it changes a host. -/
theorem storesAccepted_haltIfVSConfigInvalid (h : StoresAccepted env c) (ord : Order)
    (vsNew : VirtualServer) :
    StoresAccepted env (c.haltIfVSConfigInvalid env ord vsNew).1 ↔
      (haltIfVSConfigInvalid vsNew).KeepsAccepted env ord c := by
  simp only [Configuration.haltIfVSConfigInvalid, KeepsAccepted]
  cases hvalid : env.validateVirtualServer vsNew with
  | none =>
    have hput := (h.virtualServers.put vsNew).mpr hvalid
    simp only [true_or, iff_true]
    split
    · exact ⟨hput, h.virtualServerRoutes⟩
    · exact ⟨(hput.put vsNew).mpr hvalid, h.virtualServerRoutes⟩
  | some err =>
    have hremoved := h.virtualServers.remove (objectKey vsNew)
    simp only [reduceCtorEq, false_or, ← changes_rebuildHosts_eq_nil]
    split
    · rename_i hnil
      exact iff_of_true ⟨hremoved, h.virtualServerRoutes⟩ (isEmpty_iff.mp hnil)
    · rename_i hchanges
      refine iff_of_false (fun hall => ?_) (fun hnil => hchanges (isEmpty_iff.mpr hnil))
      have hnew : env.validateVirtualServer vsNew = none :=
        (hremoved.put vsNew).mp hall.virtualServers
      simp [hvalid] at hnew

theorem storesAccepted_haltIfVSRConfigInvalid (h : StoresAccepted env c) (ord : Order)
    (vsrNew : VirtualServerRoute) :
    StoresAccepted env (c.haltIfVSRConfigInvalid env ord vsrNew).1 := by
  unfold Configuration.haltIfVSRConfigInvalid
  split
  · exact h
  · rename_i hvalid
    exact ⟨h.virtualServers, (h.virtualServerRoutes.put vsrNew).mpr hvalid⟩

end Steps

/-- What the steps need of the validator: when it accepts a balanced object. -/
structure Env.Balances (env : Env) : Prop where
  virtualServer : ∀ vs, env.validateVirtualServer vs = none →
    (env.validateVirtualServer (balancedVirtualServer env vs) = none ↔
      (env.isDirectiveAutoadjustEnabled = true → ∀ u ∈ vs.spec.upstreams, fitsUnits u = true))
  virtualServerRoute : ∀ vsr, env.validateVirtualServerRoute vsr = none →
    (env.validateVirtualServerRoute (balancedVirtualServerRoute env vsr) = none ↔
      (env.isDirectiveAutoadjustEnabled = true → ∀ u ∈ vsr.spec.upstreams, fitsUnits u = true))

theorem Env.balances_validatedBy (env : Env) (vsv : VirtualServerValidator) :
    (env.validatedBy vsv).Balances where
  virtualServer _ h := vsv.validateVirtualServer_balanced h _
  virtualServerRoute _ h := vsv.validateVirtualServerRoute_balanced h _

section Validator

variable {env : Env} (henv : env.Balances) {c : Configuration}
include henv

/-- Among the calls only balancing can store a rejected object. -/
theorem Call.Stores.accepted_iff {ord : Order} {call : Call} {stored : Configuration}
    (hstores : Call.Stores env ord c call stored) (h : StoresAccepted env c) :
    StoresAccepted env stored ↔ (api call).KeepsAccepted env ord c := by
  cases hstores with
  | putVirtualServer vs hclass hvalid =>
    simp only [KeepsAccepted, hclass, hvalid, true_implies]
    rw [← henv.virtualServer vs hvalid]
    exact ⟨fun hall => (h.virtualServers.put _).mp hall.virtualServers,
      fun hbalanced => ⟨(h.virtualServers.put _).mpr hbalanced, h.virtualServerRoutes⟩⟩
  | putVirtualServerRoute vsr hclass hvalid =>
    simp only [KeepsAccepted, hclass, hvalid, true_implies]
    rw [← henv.virtualServerRoute vsr hvalid]
    exact ⟨fun hall => (h.virtualServerRoutes.put _).mp hall.virtualServerRoutes,
      fun hbalanced => ⟨h.virtualServers, (h.virtualServerRoutes.put _).mpr hbalanced⟩⟩
  | dropVirtualServer vs hdrop =>
    exact iff_of_true ⟨h.virtualServers.remove _, h.virtualServerRoutes⟩
      fun hclass hvalid => absurd ⟨hclass, hvalid⟩ hdrop
  | dropVirtualServerRoute vsr hdrop =>
    exact iff_of_true ⟨h.virtualServers, h.virtualServerRoutes.remove _⟩
      fun hclass hvalid => absurd ⟨hclass, hvalid⟩ hdrop
  | removeVirtualServer key =>
    exact iff_of_true ⟨h.virtualServers.remove _, h.virtualServerRoutes⟩ trivial
  | removeVirtualServerRoute key =>
    exact iff_of_true ⟨h.virtualServers, h.virtualServerRoutes.remove _⟩ trivial
  | putIngress | dropIngress | removeIngress | putTransportServer | dropTransportServer
  | removeTransportServer | setListeners | clearListeners =>
    exact iff_of_true ⟨h.virtualServers, h.virtualServerRoutes⟩ trivial

omit henv in
/-- A call that stores nothing deletes a missing object. -/
theorem Call.keepsAccepted_of_store_eq_none {ord : Order} {call : Call}
    (hs : call.store env ord c = none) : (api call).KeepsAccepted env ord c := by
  cases call with
  | addOrUpdateVirtualServer | addOrUpdateVirtualServerRoute => cases hs
  | _ => trivial

theorem Op.storesAccepted_stored (h : StoresAccepted env c) (ord : Order) {op : Op}
    (hkeeps : op.KeepsAccepted env ord c) : StoresAccepted env (op.stored env ord c) := by
  cases op with
  | api call =>
    cases hs : call.store env ord c with
    | none => simpa [stored, hs] using h
    | some stored =>
      simpa [Op.stored, hs] using ((Call.stores_of_store hs).accepted_iff henv h).mpr hkeeps
  | completeStartup => exact h.congr rfl rfl
  | haltIfVSConfigInvalid vsNew =>
    simp only [stored]
    split
    · exact ⟨h.virtualServers.remove _, h.virtualServerRoutes⟩
    · rename_i hvalid
      exact ⟨(h.virtualServers.put vsNew).mpr hvalid, h.virtualServerRoutes⟩
  | haltIfVSRConfigInvalid vsrNew =>
    simp only [stored]
    split
    · exact h
    · rename_i hvalid
      exact ⟨h.virtualServers, (h.virtualServerRoutes.put vsrNew).mpr hvalid⟩

theorem Op.storesAccepted_run (h : StoresAccepted env c) (ord : Order) (op : Op) :
    StoresAccepted env (op.run env ord c).1 ↔ op.KeepsAccepted env ord c := by
  cases op with
  | api call =>
    rw [run]
    obtain ⟨hs, hrun⟩ | ⟨stored, hs, hrun⟩ := Call.run_eq env ord c call
    · rw [hrun]
      exact iff_of_true h (Call.keepsAccepted_of_store_eq_none hs)
    · rw [hrun.1, (call.sameStores_rebuild _ ord stored).accepted_iff]
      exact (Call.stores_of_store hs).accepted_iff henv h
  | completeStartup =>
    have hsame := sameStores_rebuildHostsAfterStartup env ord { c with startupComplete := true }
    exact iff_of_true (hsame.accepted_iff.mpr (h.congr rfl rfl)) trivial
  | haltIfVSConfigInvalid vsNew => exact storesAccepted_haltIfVSConfigInvalid h ord vsNew
  | haltIfVSRConfigInvalid vsrNew =>
    exact iff_of_true (storesAccepted_haltIfVSRConfigInvalid h ord vsrNew) trivial

theorem Validated.step_iff (h : Validated env c) (hok : StoresOk env c) (ord : Order) (op : Op) :
    Validated env (op.run env ord c).1 ↔ op.KeepsAccepted env ord c := by
  refine ⟨fun hall => (storesAccepted_run henv h.toStoresAccepted ord op).mp
    hall.toStoresAccepted, fun hkeeps => ?_⟩
  refine ⟨(storesAccepted_run henv h.toStoresAccepted ord op).mpr hkeeps, fun host r hr => ?_⟩
  obtain ⟨listeners, hosts, hstep⟩ := op.rebuilds env ord c
  rw [hstep.hosts_eq] at hr
  split at hr
  · have hstored := storesAccepted_stored henv h.toStoresAccepted ord hkeeps
    exact hstored.madeOfAccepted (hok.stored ord op)
      (builtFrom_rebuildHosts (hok.stored ord op) hr).kindBuilt
  · rw [(op.tables_stored env ord c).1] at hr
    exact h.hosts host r hr

omit henv

theorem validated_init (env : Env) : Validated env {} where
  virtualServers k vs h := by simp at h
  virtualServerRoutes k vsr h := by simp at h
  hosts h r hr := by simp at hr

theorem Op.runs_take_succ (env : Env) (c : Configuration) (steps : List (Order × Op)) (n : Nat) :
    runs env c (steps.take (n + 1)) = match steps[n]? with
      | some step => (step.2.run env step.1 (runs env c (steps.take n))).1
      | none => runs env c (steps.take n) := by
  rw [runs, take_add_one, foldl_append]
  cases steps[n]? <;> rfl

end Validator

/-- The states of a run stay free of rejected objects exactly as long as its steps keep them
out. -/
theorem stored_objects_stay_accepted_iff (vsv : VirtualServerValidator) (env : Env)
    (steps : List (Order × Op)) :
    (∀ n, Validated (env.validatedBy vsv) (runs (env.validatedBy vsv) {} (steps.take n))) ↔
      ∀ (n : Nat) (ord : Order) (op : Op), steps[n]? = some (ord, op) →
        op.KeepsAccepted (env.validatedBy vsv) ord
          (runs (env.validatedBy vsv) {} (steps.take n)) := by
  have hok : ∀ n, StoresOk (env.validatedBy vsv) (runs (env.validatedBy vsv) {} (steps.take n)) :=
    fun n => (Reachable.init.runs (steps.take n)).tablesOk.stores
  have henv := env.balances_validatedBy vsv
  constructor
  · intro hall n ord op hstep
    have hnext := hall (n + 1)
    rw [runs_take_succ, hstep] at hnext
    exact ((hall n).step_iff henv (hok n) ord op).mp hnext
  · intro hkeeps n
    induction n with
    | zero => exact validated_init _
    | succ n ih =>
      rw [runs_take_succ]
      cases hstep : steps[n]? with
      | none => exact ih
      | some step =>
        exact (ih.step_iff henv (hok n) step.1 step.2).mpr (hkeeps n step.1 step.2 hstep)

/-- All features are off and the libraries accept every name. -/
def plainValidator : VirtualServerValidator where
  isPlus := true
  isDosEnabled := false
  isCertManagerEnabled := false
  isExternalDNSEnabled := false
  lib := Libraries.permissive

def coffeeWithWeights (generation first second : Int) : VirtualServer where
  objectMeta := {
    nspace := .of "default"
    name := .of "cafe"
    generation }
  spec := {
    host := "cafe.example.com"
    upstreams := [
      { name := "coffee-v1", service := "coffee-v1-svc", port := 80 },
      { name := "coffee-v2", service := "coffee-v2-svc", port := 80 }]
    routes := [{
      path := "/coffee"
      splits := [
        { weight := first, action := some { pass := "coffee-v1" } },
        { weight := second, action := some { pass := "coffee-v2" } }] }] }

/-- The new weights do not add up to 100. -/
def coffeeReweighted : List (Order × Op) := [
  (.asGiven, .api (.addOrUpdateVirtualServer (coffeeWithWeights 1 90 10))),
  (.asGiven, .completeStartup),
  (.asGiven, .haltIfVSConfigInvalid (coffeeWithWeights 2 90 20))]

/-- The weight path leaves the rejected VirtualServer in the store, and the next rebuild puts it
into the hosts. -/
theorem rejected_weights_are_stored :
    let env := (Env.permissive false).validatedBy plainValidator
    let c := runs env {} coffeeReweighted
    let next := ((api .deleteGlobalConfiguration).run env .asGiven c).1
    Reachable env c ∧ env.validateVirtualServer (coffeeWithWeights 1 90 10) = none ∧
      env.validateVirtualServer (coffeeWithWeights 2 90 20) ≠ none ∧
      c.virtualServers.get "default/cafe" = some (coffeeWithWeights 2 90 20) ∧
      next.hosts["cafe.example.com"]? =
        some (.virtualServer { virtualServer := coffeeWithWeights 2 90 20 }) := by
  refine ⟨Reachable.init.runs _, ?_⟩
  decide +kernel

end IngressController
