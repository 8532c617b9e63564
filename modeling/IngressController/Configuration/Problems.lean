import IngressController.Configuration.LatestChanges
import IngressController.Configuration.MinionScan

/-! # Which objects have a problem

The problems of a rebuild are collected by four loops. A resource has one if it holds no host, a
minion if its host has no master, a VirtualServerRoute if no VirtualServer attaches a route of its
name, and a TransportServer if the place it asks for is not its own.
-/

namespace IngressController

open IngressController.Configuration ConfigurationObject Table

def Filed (problems : GoMap ConfigurationProblem) (name : String) : Prop :=
  ∃ p, problems[name]? = some p

section Hosts

variable {env : Env} {s : Configuration} {ord : Order} {name : String}

theorem problemWithoutActiveHost_eq_none {hosts : GoMap String} {r : Resource}
    (h : problemWithoutActiveHost hosts r = none) :
    (∃ ic, r = .ingress ic ∧ ∃ host : String, ic.validHosts[host]? = some true) ∨
      ∃ host : String, hosts[host]? = some r.getKeyWithKind := by
  cases r with
  | ingress ic =>
    left
    rw [problemWithoutActiveHost] at h
    split at h
    · rename_i hany
      obtain ⟨valid, hin, hvalid⟩ := List.any_eq_true.mp hany
      obtain ⟨host, hhost⟩ := mem_values.mp hin
      exact ⟨ic, rfl, host, hvalid ▸ hhost⟩
    · cases h
  | virtualServer | transportServer =>
    right
    rw [problemWithoutActiveHost] at h
    split at h
    · rename_i hhost
      exact ⟨_, hhost⟩
    · cases h

variable {problems : GoMap ConfigurationProblem}

theorem filed_withoutActiveHost {hosts : GoMap String} {resources : GoMap Resource} :
    Filed (addProblemsForResourcesWithoutActiveHost hosts resources problems) name ↔
      Filed problems name ∨ ∃ (key : String) (r : Resource), resources[key]? = some r ∧
        (problemWithoutActiveHost hosts r).isSome = true ∧ r.getKeyWithKind = name := by
  unfold Filed addProblemsForResourcesWithoutActiveHost
  rw [exists_get_foldl (Q := fun r => (problemWithoutActiveHost hosts r).isSome = true ∧
    r.getKeyWithKind = name)]
  · refine or_congr_right ?_
    simp only [mem_values]
    constructor
    · rintro ⟨r, ⟨key, hr⟩, hproblem⟩
      exact ⟨key, r, hr, hproblem⟩
    · rintro ⟨key, r, hr, hproblem⟩
      exact ⟨r, ⟨key, hr⟩, hproblem⟩
  · intro problems r
    cases problemWithoutActiveHost hosts r with
    | none => simp
    | some p =>
      simp only [Option.isSome_some, true_and]
      exact exists_get_insert

theorem filed_scanOrphans {hosts : GoMap Resource} :
    Filed (scanProblemsForOrphanMinions s hosts problems) name ↔
      Filed problems name ∨ ∃ ing ∈ scanOrphans s hosts,
        (ingress ing).keyWithKind = name := by
  unfold Filed scanProblemsForOrphanMinions
  apply exists_get_foldl
  intro problems ing
  exact exists_get_insert

theorem filed_orphanOrIgnoredVsrs {hosts : GoMap Resource} :
    Filed (addProblemsForOrphanOrIgnoredVsrs s hosts problems) name ↔
      Filed problems name ∨ ∃ vsr, Stored s (.virtualServerRoute vsr) ∧
        (problemOfVsr hosts vsr).isSome = true ∧
        (virtualServerRoute vsr).keyWithKind = name := by
  unfold Filed addProblemsForOrphanOrIgnoredVsrs
  rw [exists_get_foldl (Q := fun vsr => (problemOfVsr hosts vsr).isSome = true ∧
    (virtualServerRoute vsr).keyWithKind = name)]
  · simp only [Store.mem_sorted]
    rfl
  intro problems vsr
  cases problemOfVsr hosts vsr with
  | none => simp
  | some p =>
    simp only [Option.isSome_some, true_and]
    exact exists_get_insert

theorem filed_newHostProblems (hindexed : MinionsIndexed s) :
    Filed (newHostProblems env s ord) name ↔
      (∃ (key : String) (r : Resource), (newResources env s ord)[key]? = some r ∧
        (problemWithoutActiveHost (buildHostsAndResources env s ord).hosts r).isSome = true ∧
        r.getKeyWithKind = name) ∨
      (∃ ing ∈ scanOrphans s (newHosts env s ord),
        (ingress ing).keyWithKind = name) ∨
      ∃ vsr, Stored s (.virtualServerRoute vsr) ∧
        (problemOfVsr (newHosts env s ord) vsr).isSome = true ∧
        (virtualServerRoute vsr).keyWithKind = name := by
  have hempty : ¬ Filed ∅ name := by
    rintro ⟨p, hp⟩
    simp at hp
  rw [newHostProblems, filed_orphanOrIgnoredVsrs, hindexed.addProblemsForOrphanMinions_eq,
    filed_scanOrphans, filed_withoutActiveHost, or_iff_right hempty, or_assoc]

theorem filed_newListenerProblems :
    Filed (newListenerProblems s ord) name ↔
      ∃ (key : String) (tsc : TransportServerConfiguration),
        (buildListenerHostsAndTSConfigurations s ord).tsConfigs[key]? = some tsc ∧
        (problemWithoutActiveListener (newListenerHosts s ord) tsc).isSome = true ∧
        (Resource.transportServer tsc).getKeyWithKind = name := by
  unfold Filed newListenerProblems addProblemsForTSConfigsWithoutActiveListener
  rw [exists_get_foldl (Q := fun tsc =>
    (problemWithoutActiveListener (newListenerHosts s ord) tsc).isSome = true ∧
      (Resource.transportServer tsc).getKeyWithKind = name)]
  · simp only [mem_values]
    constructor
    · rintro (⟨p, hp⟩ | ⟨tsc, ⟨key, htsc⟩, hproblem⟩)
      · simp at hp
      · exact ⟨key, tsc, htsc, hproblem⟩
    · rintro ⟨key, tsc, htsc, hproblem⟩
      exact .inr ⟨tsc, ⟨key, htsc⟩, hproblem⟩
  · intro problems tsc
    cases problemWithoutActiveListener (newListenerHosts s ord) tsc with
    | none => simp
    | some p =>
      simp only [Option.isSome_some, true_and]
      exact exists_get_insert

end Hosts

end IngressController
