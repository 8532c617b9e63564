import IngressController.Configuration.MinionIndex
import IngressController.Configuration.Minions

/-! # The minion index against a scan

The loops over minions read the index and not the stored Ingresses. Every run keeps the
index exact, so what they compute is what a scan of all stored Ingresses computes.
-/

namespace IngressController

open IngressController.Configuration List Option

variable {c : Configuration}

theorem MinionsIndexed.congr {c' : Configuration} (h : MinionsIndexed c)
    (hing : c'.ingresses = c.ingresses) (hindex : c'.minionsByHost = c.minionsByHost) :
    MinionsIndexed c' := by
  rw [MinionsIndexed, hing, hindex]
  exact h

variable {env : Env}

theorem MinionsIndexed.haltIfVSConfigInvalid
    (h : MinionsIndexed c) (ord : Order) (vsNew : VirtualServer) :
    MinionsIndexed (c.haltIfVSConfigInvalid env ord vsNew).1 := by
  obtain ⟨vss, vss', heq⟩ := haltIfVSConfigInvalid_rebuilds env ord vsNew c
  rw [heq]
  exact h.congr rfl rfl

theorem MinionsIndexed.haltIfVSRConfigInvalid
    (h : MinionsIndexed c) (ord : Order) (vsrNew : VirtualServerRoute) :
    MinionsIndexed (c.haltIfVSRConfigInvalid env ord vsrNew).1 := by
  unfold Configuration.haltIfVSRConfigInvalid
  cases env.validateVirtualServerRoute vsrNew with
  | some err => exact h
  | none => exact h.congr rfl rfl

theorem MinionsIndexed.step (h : MinionsIndexed c) (ord : Order)
    (op : Op) : MinionsIndexed (op.run env ord c).1 := by
  cases op with
  | api call => exact h.run ord call
  | completeStartup => exact h.congr rfl rfl
  | haltIfVSConfigInvalid vsNew => exact h.haltIfVSConfigInvalid ord vsNew
  | haltIfVSRConfigInvalid vsrNew => exact h.haltIfVSRConfigInvalid ord vsrNew

theorem Reachable.minionsIndexed (h : Reachable env c) :
    MinionsIndexed c := by
  induction h with
  | init => exact MinionsIndexed.init false
  | step _ ord op ih => exact ih.step ord op

variable {host : String} {ing : Ingress}

theorem minionHost_eq_some : minionHost ing = some host ↔
      isMinion ing = true ∧ ing.spec.rules.head?.map IngressRule.host = some host := by
  unfold minionHost Ingress.firstHost
  cases hminion : isMinion ing <;> cases ing.spec.rules <;> simp

namespace Configuration

variable (c : Configuration)

/-- The stored minions of a host, found without the index. -/
def scanMinions (masterHost : String) : List Ingress :=
  c.ingresses.sorted.filter fun ing => minionHost ing = some masterHost

def scanMinionConfigs (masterHost : String) : List MinionConfiguration × GoMap (List String) :=
  let b := minionBuild (scanMinions c masterHost)
  (Table.values b.minions, b.childWarnings)

def orphanMinion (ing : Ingress) : ConfigurationProblem :=
  ⟨.ingress ing, false, eventReasonNoIngressMasterFound,
    "Ingress master is invalid or doesn't exist"⟩

variable (hosts : GoMap Resource)

/-- The stored minions whose host has no master. -/
def scanOrphans : List Ingress :=
  c.ingresses.sorted.filter fun ing =>
    match minionHost ing with
    | some host => !hasMaster hosts host
    | none => false

def scanProblemsForOrphanMinions
    (problems : GoMap ConfigurationProblem) : GoMap ConfigurationProblem :=
  (scanOrphans c hosts).foldl (fun problems ing =>
    problems.insert (getResourceKeyWithKind ingressKind ing.objectMeta) (orphanMinion ing)) problems

/-- The minions that the loop over the index reports. -/
def indexedOrphans : List Ingress :=
  c.minionsByHost.toList.flatMap fun e =>
    if hasMaster hosts e.1 then [] else e.2.keys.filterMap c.ingresses.get

theorem addProblemsForOrphanMinions_eq_write (problems : GoMap ConfigurationProblem) :
    addProblemsForOrphanMinions c hosts problems =
      (indexedOrphans c hosts).foldl (fun problems ing => problems.insert
        (getResourceKeyWithKind ingressKind ing.objectMeta) (orphanMinion ing)) problems := by
  rw [addProblemsForOrphanMinions, indexedOrphans, foldl_flatMap]
  apply foldl_ext
  intro problems e _
  obtain ⟨host, minionKeys⟩ := e
  simp only
  split
  · rfl
  · rw [foldl_filterMap]
    apply foldl_ext
    intro problems key _
    cases c.ingresses.get key <;> rfl

end Configuration

section Index

variable {c : Configuration} (h : MinionsIndexed c)

include h

theorem MinionsIndexed.mem_keys {key : String} : key ∈ ((c.minionsByHost[host]?).getD ∅).keys ↔
      ∃ ing, c.ingresses.get key = some ing ∧ minionHost ing = some host := by
  rw [Table.mem_keys_iff]
  constructor
  · intro hkey
    obtain ⟨b, hb⟩ := hkey
    exact bind_eq_some_iff.mp ((h.get_iff host key b).mp hb).2
  · intro hing
    exact ⟨true, (h.get_iff host key true).mpr ⟨rfl, bind_eq_some_iff.mpr hing⟩⟩

theorem MinionsIndexed.mem_minionsOfHost : ing ∈ minionsOfHost c host ↔
      c.ingresses.get (objectKey ing) = some ing ∧ minionHost ing = some host := by
  rw [minionsOfHost, mem_filterMap]
  constructor
  · intro hin
    obtain ⟨key, hkey, hget⟩ := hin
    obtain ⟨ing', hget', hhost⟩ := h.mem_keys.mp hkey
    rw [hget, some.injEq] at hget'
    rw [← c.ingresses.key_of_get hget] at hget
    exact ⟨hget, hget' ▸ hhost⟩
  · intro hstored
    exact ⟨objectKey ing, h.mem_keys.mpr ⟨ing, hstored⟩, hstored.1⟩

theorem MinionsIndexed.minionsOfHost_eq (masterHost : String) :
    minionsOfHost c masterHost = scanMinions c masterHost := by
  have hirrefl : Std.Irrefl fun a b : Ingress => compare (objectKey a) (objectKey b) = .lt := by
    refine ⟨fun a hlt => ?_⟩
    rw [Std.compare_self] at hlt
    cases hlt
  have hantisymm : Std.Antisymm fun a b : Ingress =>
      compare (objectKey a) (objectKey b) = .lt := by
    refine ⟨fun a b hab hba => ?_⟩
    rw [Std.OrientedCmp.gt_of_lt hba] at hab
    cases hab
  have hindexed := pairwise_map.mp (sorted_minionsOfHost c masterHost)
  have hkeys : (c.ingresses.sorted.map objectKey).Pairwise fun a b => compare a b = .lt := by
    rw [c.ingresses.map_objectKey_sorted]
    exact Std.ExtTreeMap.ordered_keys
  have hscanned : (scanMinions c masterHost).Pairwise fun a b : Ingress =>
      compare (objectKey a) (objectKey b) = .lt :=
    (pairwise_map.mp hkeys).filter _
  apply List.Pairwise.eq_of_mem_iff hindexed hscanned
  intro ing
  rw [h.mem_minionsOfHost, scanMinions, mem_filter, Store.mem_sorted, decide_eq_true_iff]

theorem MinionsIndexed.buildMinionConfigs_eq (masterHost : String) :
    buildMinionConfigs c masterHost = scanMinionConfigs c masterHost := by
  rw [buildMinionConfigs_eq_build, h.minionsOfHost_eq]
  rfl

theorem MinionsIndexed.mem_indexedOrphans {hosts : GoMap Resource} :
    ing ∈ indexedOrphans c hosts ↔ ing ∈ scanOrphans c hosts := by
  have hscan : ing ∈ scanOrphans c hosts ↔ c.ingresses.get (objectKey ing) = some ing ∧
      ∃ host, minionHost ing = some host ∧ hasMaster hosts host = false := by
    rw [scanOrphans, mem_filter, Store.mem_sorted]
    cases minionHost ing <;> simp
  have hindexed : ing ∈ indexedOrphans c hosts ↔
      ∃ host, hasMaster hosts host = false ∧ ing ∈ minionsOfHost c host := by
    simp only [indexedOrphans, mem_flatMap, Prod.exists,
      Std.ExtTreeMap.mem_toList_iff_getElem?_eq_some]
    constructor
    · intro hin
      obtain ⟨host, keys, hkeys, hin⟩ := hin
      cases hmaster : hasMaster hosts host with
      | true => simp [hmaster] at hin
      | false =>
        refine ⟨host, hmaster, ?_⟩
        rw [minionsOfHost, hkeys, getD_some]
        simpa [hmaster] using hin
    · intro hin
      obtain ⟨host, hmaster, hin⟩ := hin
      rw [minionsOfHost] at hin
      cases hkeys : c.minionsByHost[host]? with
      | none => simp [hkeys] at hin
      | some keys =>
        rw [hkeys, getD_some] at hin
        exact ⟨host, keys, hkeys, by simpa [hmaster] using hin⟩
  rw [hindexed, hscan]
  simp only [h.mem_minionsOfHost]
  constructor
  · intro hin
    obtain ⟨host, hmaster, hstored, hhost⟩ := hin
    exact ⟨hstored, host, hhost, hmaster⟩
  · intro hin
    obtain ⟨hstored, host, hhost, hmaster⟩ := hin
    exact ⟨host, hmaster, hstored, hhost⟩

theorem MinionsIndexed.addProblemsForOrphanMinions_eq (hosts : GoMap Resource)
    (problems : GoMap ConfigurationProblem) :
    addProblemsForOrphanMinions c hosts problems =
      scanProblemsForOrphanMinions c hosts problems := by
  rw [addProblemsForOrphanMinions_eq_write, scanProblemsForOrphanMinions]
  apply Table.foldl_write_congr orphanMinion fun ing => h.mem_indexedOrphans
  -- stored Ingresses with one name are the same
  have hstored : ∀ ing ∈ indexedOrphans c hosts, Stored c (.ingress ing) := by
    intro ing hin
    rw [h.mem_indexedOrphans, scanOrphans, mem_filter, Store.mem_sorted] at hin
    exact hin.1
  intro ing hin ing' hin' hname
  exact ConfigurationObject.ingress.inj
    (Stored.eq_of_name (hstored ing hin) (hstored ing' hin') hname)

end Index

/-- The index holds exactly the stored minions under the hosts of their first rules, and the loops
over it compute what a scan of the stored Ingresses computes. -/
theorem minion_index_is_exact {env : Env} {c : Configuration} (h : Reachable env c) :
    (∀ host key : String, key ∈ ((c.minionsByHost[host]?).getD ∅).keys ↔
      ∃ ing, c.ingresses.get key = some ing ∧ isMinion ing = true ∧
        ing.spec.rules.head?.map IngressRule.host = some host) ∧
    (∀ masterHost, buildMinionConfigs c masterHost = scanMinionConfigs c masterHost) ∧
    ∀ hosts problems, addProblemsForOrphanMinions c hosts problems =
      scanProblemsForOrphanMinions c hosts problems := by
  refine ⟨fun host key => ?_, h.minionsIndexed.buildMinionConfigs_eq,
    h.minionsIndexed.addProblemsForOrphanMinions_eq⟩
  rw [h.minionsIndexed.mem_keys]
  simp only [minionHost_eq_some]

def teaMinion (host : String) (generation : ℤ) : Ingress where
  objectMeta := {
    nspace := .of "default"
    name := .of "tea"
    generation
    annotations := (∅ : GoMap String).insert mergeableIngressType "minion" }
  spec := { rules := [{ host, http := some [{ path := "/tea" }] }] }

def withMovedMinion : Configuration :=
  Op.runs (Env.permissive false) {} [
    (.asGiven, .api (.addOrUpdateIngress (teaMinion "cafe.example.com" 1))),
    (.asGiven, .completeStartup),
    (.asGiven, .api (.addOrUpdateIngress (teaMinion "tea.example.com" 2)))]

theorem minion_index_is_exact_moved :
    Reachable (Env.permissive false) withMovedMinion ∧
      ((withMovedMinion.minionsByHost["tea.example.com"]?).getD ∅).keys = ["default/tea"] ∧
      buildMinionConfigs withMovedMinion "tea.example.com" =
        scanMinionConfigs withMovedMinion "tea.example.com" :=
  ⟨Reachable.init.runs _, by decide +kernel,
    (minion_index_is_exact (Reachable.init.runs _)).2.1 "tea.example.com"⟩

end IngressController
