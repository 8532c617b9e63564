import IngressController.Configuration.ChangeReplay
import IngressController.Configuration.CurrentTables

/-! # Rejected objects

A rejected object leaves the tables, because its store forgets it before the rebuild. Its
error goes to the change that removes it or, when it held nothing, into a problem.
-/

namespace IngressController

open IngressController.Configuration ChangeLog ConfigurationObject Resource List

/-! ## Names of objects -/

theorem getKeyWithKind_ne_route (r : Resource) (vsr : VirtualServerRoute) :
    r.getKeyWithKind ≠ (ConfigurationObject.virtualServerRoute vsr).keyWithKind := by
  intro h
  cases r <;> simp [getKeyWithKind_eq, keyWithKind_inj, object, ConfigurationObject.kind,
    ingressKind, virtualServerKind, virtualServerRouteKind, transportServerKind] at h

/-! ## Calls that are rejected -/

/-- An object with the right class that fails validation, and its error. -/
def rejectedWith (env : Env) (x : ConfigurationObject) (validationError : Option String) :
    Option (ConfigurationObject × String) :=
  if env.hasCorrectIngressClass x then validationError.map fun err => (x, err) else none

theorem of_rejectedWith {env : Env} {x y : ConfigurationObject} {validationError : Option String}
    {err : String} (h : rejectedWith env y validationError = some (x, err)) :
    y = x ∧ env.hasCorrectIngressClass y = true ∧ validationError = some err := by
  unfold rejectedWith at h
  split at h
  · rename_i hclass
    obtain ⟨err', hinvalid, heq⟩ := Option.map_eq_some_iff.mp h
    cases heq
    exact ⟨rfl, hclass, hinvalid⟩
  · cases h

/-- The object a call brings and is rejected with. -/
def Call.rejects (env : Env) : Call → Option (ConfigurationObject × String)
  | .addOrUpdateIngress ing => rejectedWith env (.ingress ing) (env.validateIngress ing)
  | .addOrUpdateVirtualServer vs =>
    rejectedWith env (.virtualServer vs) (env.validateVirtualServer vs)
  | .addOrUpdateVirtualServerRoute vsr =>
    rejectedWith env (.virtualServerRoute vsr) (env.validateVirtualServerRoute vsr)
  | .addOrUpdateTransportServer ts =>
    rejectedWith env (.transportServer ts) (env.validateTransportServer ts)
  | _ => none

def rejection (x : ConfigurationObject) (err : String) : ConfigurationProblem :=
  match x with
  | .ingress _ => rejected x err
  | _ => rejected x (rejectedWithError x.kind x.objectMeta err)

/-- The error is in the one change of the object, which deletes it, or in one problem. -/
inductive ReportedOnce (x : ConfigurationObject) (err : String) (report : Report) : Prop
  | change (before after : List ResourceChange) (r : Resource)
      (hname : r.getKeyWithKind = x.keyWithKind)
      (hchanges : report.changes =
        before ++ { op := .delete, resource := r, error := err } :: after)
      (hothers : ∀ change ∈ before ++ after,
        change.resource.getKeyWithKind ≠ x.keyWithKind ∧ change.error = "")
      (hproblems : ∀ p ∈ report.problems, p.isError = false)
  | problem (problems : List ConfigurationProblem)
      (hchanges : ∀ change ∈ report.changes,
        change.resource.getKeyWithKind ≠ x.keyWithKind ∧ change.error = "")
      (hproblems : report.problems = problems ++ [rejection x err])
      (hothers : ∀ p ∈ problems, p.isError = false)

/-- What a rebuild reports about a name that the new tables do not have. -/
structure RemovedOnce (name : String) (report : Report) : Prop where
  once : ((announced report.changes).map Prod.snd).count name ≤ 1
  deletes : (Operation.addOrUpdate, name) ∉ announced report.changes
  errors : ∀ change ∈ report.changes, change.error = ""
  problems : ∀ p ∈ report.problems, p.isError = false

theorem attachError_cases (key err : String) (changes : List ResourceChange) :
    (attachError key err changes = none ∧
        ∀ change ∈ changes, change.resource.getKeyWithKind ≠ key) ∨
      ∃ before change after, changes = before ++ change :: after ∧
        change.resource.getKeyWithKind = key ∧
        attachError key err changes = some (before ++ { change with error := err } :: after) := by
  induction changes with
  | nil => exact .inl ⟨rfl, by simp⟩
  | cons change rest ih =>
    unfold attachError
    by_cases hkey : change.resource.getKeyWithKind = key
    · exact .inr ⟨[], change, rest, rfl, hkey, if_pos hkey⟩
    rw [if_neg hkey]
    obtain ⟨hnone, hrest⟩ | ⟨before, first, after, rfl, hfirst, hsome⟩ := ih
    · exact .inl ⟨by rw [hnone]; rfl, forall_mem_cons.mpr ⟨hkey, hrest⟩⟩
    · exact .inr ⟨change :: before, first, after, rfl, hfirst, by rw [hsome]; rfl⟩

theorem RemovedOnce.reject {x : ConfigurationObject} {err : String} {report : Report}
    (h : RemovedOnce x.keyWithKind report) :
    ReportedOnce x err (Report.reject x.keyWithKind err (rejection x err) report) := by
  unfold Report.reject
  obtain ⟨hnone, hchanges⟩ | ⟨before, change, after, hchanges, hname, hsome⟩ :=
    attachError_cases x.keyWithKind err report.changes
  · rw [hnone]
    exact .problem report.problems (fun c hc => ⟨hchanges c hc, h.errors c hc⟩) rfl h.problems
  rw [hsome]
  have honce := h.once
  have hop : change.op = .delete := by
    cases hop : change.op with
    | delete => rfl
    | addOrUpdate =>
      refine absurd (mem_map.mpr ⟨change, by simp [hchanges], ?_⟩) h.deletes
      rw [hop, hname]
  refine .change before after change.resource hname ?_ (fun c hc => ⟨fun hcname => ?_, ?_⟩)
    h.problems
  · rw [← hop]
  · -- two changes of one name
    have hcount : ((announced (before ++ after)).map Prod.snd).count x.keyWithKind = 0 := by
      rw [hchanges] at honce
      simp only [announced, map_append, map_cons, count_append, count_cons,
        hname, beq_self_eq_true, if_true] at honce ⊢
      omega
    apply count_eq_zero.mp hcount
    rw [announced, map_map]
    exact mem_map.mpr ⟨c, hc, hcname⟩
  · apply h.errors
    simp only [hchanges, mem_append, mem_cons] at hc ⊢
    tauto

/-! ## What a rebuild reports -/

section Rebuilds

variable {env : Env} {s : Configuration} {ord : Order} {name : String}

theorem error_referToLatest {resources : GoMap Resource} {changes : List ResourceChange}
    (h : ∀ change ∈ changes, change.error = "") :
    ∀ change ∈ referToLatest resources changes, change.error = "" := by
  intro change hin
  obtain ⟨change', hin', rfl⟩ := mem_map.mp hin
  split <;> exact h change' hin'

theorem mem_detectChangesInProblems {new old : GoMap ConfigurationProblem}
    {p : ConfigurationProblem} (h : p ∈ detectChangesInProblems new old) :
    ∃ k : String, new[k]? = some p := by
  obtain ⟨⟨k, newP⟩, he, hp⟩ := mem_filterMap.mp h
  have hget : new[k]? = some newP := Std.ExtTreeMap.mem_toList_iff_getElem?_eq_some.mp he
  refine ⟨k, ?_⟩
  grind

def NoErrors (problems : GoMap ConfigurationProblem) : Prop :=
  ∀ (k : String) p, problems[k]? = some p → p.isError = false

theorem NoErrors.empty : NoErrors ∅ := by
  simp [NoErrors]

theorem NoErrors.insert {problems : GoMap ConfigurationProblem} (h : NoErrors problems)
    {p : ConfigurationProblem} (hp : p.isError = false) (k : String) :
    NoErrors (problems.insert k p) := by
  intro k' p' hget
  rw [Table.get_insert] at hget
  split at hget
  · cases hget
    exact hp
  · exact h k' p' hget

theorem NoErrors.foldl {β : Type} {problems : GoMap ConfigurationProblem} (h : NoErrors problems)
    (l : List β) (step : GoMap ConfigurationProblem → β → GoMap ConfigurationProblem)
    (hstep : ∀ problems b, NoErrors problems → NoErrors (step problems b)) :
    NoErrors (l.foldl step problems) := by
  induction l generalizing problems with
  | nil => exact h
  | cons b l ih => exact ih (hstep problems b h)

theorem noErrors_newHostProblems : NoErrors (newHostProblems env s ord) := by
  unfold newHostProblems addProblemsForOrphanOrIgnoredVsrs addProblemsForOrphanMinions
    addProblemsForResourcesWithoutActiveHost
  refine NoErrors.foldl (NoErrors.foldl (NoErrors.foldl NoErrors.empty _ _ ?_) _ _ ?_) _ _ ?_
  · intro problems r h
    split
    · rename_i p hp
      refine h.insert ?_ _
      unfold problemWithoutActiveHost at hp
      split at hp <;> split at hp <;> cases hp <;> rfl
    · exact h
  · intro problems e h
    simp only
    split
    · exact h
    · refine h.foldl _ _ fun problems key h => ?_
      split
      · exact h
      · exact h.insert rfl _
  · intro problems vsr h
    split
    · rename_i p hp
      refine h.insert ?_ _
      unfold problemOfVsr at hp
      split at hp
      · split at hp <;> cases hp
        rfl
      · cases hp
        rfl
    · exact h

theorem noErrors_newListenerProblems : NoErrors (newListenerProblems s ord) := by
  unfold newListenerProblems addProblemsForTSConfigsWithoutActiveListener
  refine NoErrors.foldl NoErrors.empty _ _ fun problems tsc h => ?_
  split
  · rename_i p hp
    refine h.insert ?_ _
    unfold problemWithoutActiveListener at hp
    simp only at hp
    split at hp
    · cases hp
      rfl
    · split at hp <;> cases hp
      rfl
  · exact h

section TableLog

variable {κ : Type} [Ord κ] [Std.TransOrd κ] [Std.LawfulEqOrd κ] {removed updated added : List κ}
  {old new : Table κ Resource}

theorem update_notMem_tableLog (hname : name ∉ names getKeyWithKind new) :
    (Operation.addOrUpdate, name) ∉
      announced (tableLog getKeyWithKind removed updated added old new) := by
  intro hin
  obtain ⟨change, hchange, heq⟩ := mem_map.mp hin
  rw [Prod.mk.injEq] at heq
  obtain ⟨k, n, -, hget, hident⟩ := exists_update_tableLog.mp ⟨change, hchange, heq⟩
  exact hname (mem_names.mpr ⟨k, n, hget, hident⟩)

theorem removedOnce_of_tableLog {report : Report} {problems problems' : GoMap ConfigurationProblem}
    (hlog : announced report.changes =
      announced (tableLog getKeyWithKind removed updated added old new))
    (hname : name ∉ names getKeyWithKind new)
    (herrors : ∀ change ∈ report.changes, change.error = "")
    (hproblems : report.problems = detectChangesInProblems problems problems')
    (hnone : NoErrors problems) : RemovedOnce name report := by
  refine ⟨?_, hlog ▸ update_notMem_tableLog hname, herrors, fun p hp => ?_⟩
  · rw [hlog, announced, map_map]
    exact nodup_iff_count_le_one.mp (@nodup_names_squash _ getKeyWithKind _) name
  · obtain ⟨k, hk⟩ := mem_detectChangesInProblems (hproblems ▸ hp)
    exact hnone k p hk

/-- A name without a new place is logged only if it had an old one. -/
theorem mem_old_of_tableLog (hdetects : Detects getKeyWithKind old new removed updated
      added) (hname : name ∉ names getKeyWithKind new)
    (hin : name ∈ (announced (tableLog getKeyWithKind removed updated added old new)).map
      Prod.snd) : name ∈ names getKeyWithKind old := by
  obtain ⟨⟨op, name'⟩, hmem, rfl⟩ := mem_map.mp hin
  obtain ⟨change, hchange, heq⟩ := mem_map.mp hmem
  rw [Prod.mk.injEq] at heq
  cases hop : op with
  | addOrUpdate =>
    rw [hop] at hmem
    exact absurd hmem (update_notMem_tableLog hname)
  | delete =>
    rw [hop] at heq
    exact ((exists_delete_tableLog hdetects).mp ⟨change, hchange, heq⟩).1

end TableLog

theorem removedOnce_rebuildHosts (hok : StoresOk env s)
    (hname : name ∉ hostNames (rebuildHosts env s ord).1) :
    RemovedOnce name ⟨(rebuildHosts env s ord).2.1, (rebuildHosts env s ord).2.2⟩ := by
  rw [hostNames_rebuildHosts] at hname
  exact removedOnce_of_tableLog (announced_rebuildHosts env s ord hok) hname
    (error_referToLatest fun c hc => error_of_mem_tableLog hc) rfl noErrors_newHostProblems

theorem removedOnce_rebuildListenerHosts
    (hname : name ∉ listenerNames (rebuildListenerHosts s ord).1) :
    RemovedOnce name ⟨(rebuildListenerHosts s ord).2.1, (rebuildListenerHosts s ord).2.2⟩ :=
  removedOnce_of_tableLog (congrArg announced (rebuildListenerHosts_changes s ord)) hname
    (error_referToLatest fun _ hc => error_of_mem_tableLog hc) rfl noErrors_newListenerProblems

theorem mem_hostNames_of_changed (hok : StoresOk env s) (hwf : HostsWf s.hosts)
    (hname : name ∉ hostNames (rebuildHosts env s ord).1)
    (hin : name ∈ (announced (rebuildHosts env s ord).2.1).map Prod.snd) : name ∈ hostNames s := by
  rw [announced_rebuildHosts env s ord hok] at hin
  rw [hostNames_rebuildHosts] at hname
  exact mem_old_of_tableLog (detects_hosts hwf (hostsWf_newHosts hok.ingresses)) hname hin

theorem mem_listenerNames_of_changed (hwf : ListenersWf s.listenerHosts)
    (hname : name ∉ listenerNames (rebuildListenerHosts s ord).1)
    (hin : name ∈ (announced (rebuildListenerHosts s ord).2.1).map Prod.snd) :
    name ∈ listenerNames s := by
  rw [rebuildListenerHosts_changes] at hin
  exact mem_old_of_tableLog (detects_listeners hwf) hname hin

theorem RemovedOnce.append {report report' : Report} (h : RemovedOnce name report)
    (h' : RemovedOnce name report')
    (hdisjoint : name ∈ (announced report.changes).map Prod.snd →
      name ∉ (announced report'.changes).map Prod.snd) :
    RemovedOnce name ⟨report.changes ++ report'.changes, report.problems ++ report'.problems⟩ where
  once := by
    rw [announced_append, map_append, count_append]
    by_cases hin : name ∈ (announced report.changes).map Prod.snd
    · rw [count_eq_zero.mpr (hdisjoint hin), Nat.add_zero]
      exact h.once
    · rw [count_eq_zero.mpr hin, Nat.zero_add]
      exact h'.once
  deletes := by
    rw [announced_append, mem_append, not_or]
    exact ⟨h.deletes, h'.deletes⟩
  errors := forall_mem_append.mpr ⟨h.errors, h'.errors⟩
  problems := forall_mem_append.mpr ⟨h.problems, h'.problems⟩

end Rebuilds

section Calls

variable {env : Env} {c : Configuration} {ord : Order} {call : Call} {x : ConfigurationObject}
  {err : String}

theorem reject_route (vsr : VirtualServerRoute) (problem : ConfigurationProblem) (report : Report) :
    Report.reject (virtualServerRoute vsr).keyWithKind err problem report =
      { report with problems := report.problems ++ [problem] } := by
  unfold Report.reject
  obtain ⟨hnone, -⟩ | ⟨before, change, after, -, hname, -⟩ :=
    attachError_cases (virtualServerRoute vsr).keyWithKind err report.changes
  · rw [hnone]
  · exact absurd hname (getKeyWithKind_ne_route change.resource vsr)

/-- A rejecting call forgets the object, rebuilds and reports the error. -/
theorem Call.run_of_rejects (ord : Order) (c : Configuration)
    (h : call.rejects env = some (x, err)) :
    ∃ stored, call.store env ord c = some stored ∧ stored.version x = none ∧
      call.run env ord c = ((call.rebuild env ord stored).1,
        Report.reject x.keyWithKind err (rejection x err) (call.rebuild env ord stored).2) := by
  cases call with
  | addOrUpdateIngress ing =>
    obtain ⟨rfl, hclass, hinvalid⟩ := of_rejectedWith h
    have hstore : storeIngress env ord ing c = ({ c with
        ingresses := c.ingresses.remove (objectKey ing)
        minionsByHost := updateMinionIndex ord (objectKey ing) none c.minionsByHost },
          some err) := by
      simp [storeIngress, Store.accept, hclass, hinvalid]
    refine ⟨(storeIngress env ord ing c).1, rfl, by simp [hstore, version], ?_⟩
    simp only [Call.run, Configuration.addOrUpdateIngress, hstore, Report.rejectIf]
    rfl
  | addOrUpdateVirtualServer vs =>
    obtain ⟨rfl, hclass, hinvalid⟩ := of_rejectedWith h
    have hstore : storeVirtualServer env vs c = ({ c with
        virtualServers := c.virtualServers.remove (objectKey vs) }, some err) := by
      simp only [storeVirtualServer, Store.accept, hclass, hinvalid, if_true]
      rfl
    refine ⟨(storeVirtualServer env vs c).1, rfl, by simp [hstore, version], ?_⟩
    simp only [Call.run, Configuration.addOrUpdateVirtualServer, hstore, Report.rejectIf]
    rfl
  | addOrUpdateVirtualServerRoute vsr =>
    obtain ⟨rfl, hclass, hinvalid⟩ := of_rejectedWith h
    have hstore : storeVirtualServerRoute env vsr c = ({ c with
        virtualServerRoutes := c.virtualServerRoutes.remove (objectKey vsr) }, some err) := by
      simp only [storeVirtualServerRoute, Store.accept, hclass, hinvalid, if_true]
      rfl
    refine ⟨(storeVirtualServerRoute env vsr c).1, rfl, by simp [hstore, version], ?_⟩
    simp only [Call.run, Configuration.addOrUpdateVirtualServerRoute, hstore]
    rw [reject_route]
    rfl
  | addOrUpdateTransportServer ts =>
    obtain ⟨rfl, hclass, hinvalid⟩ := of_rejectedWith h
    have hstore : storeTransportServer env ts c = ({ c with
        transportServers := c.transportServers.remove (objectKey ts) }, some err) := by
      simp [storeTransportServer, Store.accept, hclass, hinvalid]
    refine ⟨(storeTransportServer env ts c).1, rfl, by simp [hstore, version], ?_⟩
    simp only [Call.run, Configuration.addOrUpdateTransportServer, hstore, Report.rejectIf]
    rfl
  | _ => cases h

/-- The listeners are rebuilt for rejected TransportServers only. -/
theorem Call.eq_of_rejects (h : call.rejects env = some (x, err))
    (hlisteners : call.rebuildsListeners = true) :
    ∃ ts, call = .addOrUpdateTransportServer ts := by
  cases call with
  | addOrUpdateTransportServer ts => exact ⟨ts, rfl⟩
  | addOrUpdateIngress | addOrUpdateVirtualServer | addOrUpdateVirtualServerRoute =>
    cases hlisteners
  | _ => cases h

theorem SameStores.version_eq {c c' : Configuration} (h : SameStores c c')
    (x : ConfigurationObject) : c'.version x = c.version x := by
  cases x <;> simp only [version, h.ingresses, h.virtualServers, h.virtualServerRoutes,
    h.transportServers]

theorem not_shown_of_rejects (hreach : Reachable env c) (hstartup : c.startupComplete = true)
    (h : call.rejects env = some (x, err)) {y : ConfigurationObject}
    (hy : Shown env (call.run env ord c).1 y) : y.keyWithKind ≠ x.keyWithKind := by
  intro hname
  have hafter : Reachable env (call.run env ord c).1 := hreach.step ord (.api call)
  have hstart : (call.run env ord c).1.startupComplete = true := by
    rw [Call.run_startupComplete]
    exact hstartup
  obtain ⟨stored, hstore, hversion, hrun⟩ := call.run_of_rejects ord c h
  have hgone : (call.run env ord c).1.version x = none := by
    rw [hrun, (call.sameStores_rebuild env ord stored).version_eq, hversion]
  suffices hstored : Stored (call.run env ord c).1 y by
    rw [version_of_stored hstored hname] at hgone
    cases hgone
  -- the hosts are rebuilt, except for TransportServers
  by_cases hlisteners : call.rebuildsListeners = true
  · obtain ⟨ts, rfl⟩ := call.eq_of_rejects h hlisteners
    obtain ⟨rfl, -⟩ := of_rejectedWith h
    cases y with
    | transportServer ts' => exact hy.stored_transportServer hafter.tablesOk hstart
    | ingress | virtualServer | virtualServerRoute =>
      simp [keyWithKind_inj, ConfigurationObject.kind, ingressKind, virtualServerKind,
        virtualServerRouteKind, transportServerKind] at hname
  · have hbuilt : BuiltHosts env (call.run env ord c).1 ord := by
      have hstart' : stored.startupComplete = true :=
        (Call.stores_of_store hstore).sameTables.startupComplete.trans hstartup
      rw [hrun, Call.rebuild, if_neg hlisteners, rebuildHostsAfterStartup, if_pos hstart']
      exact builtHosts_rebuildHosts
    exact hy.stored hafter.tablesOk.stores hafter.tablesOk.listeners hbuilt

/-- The rebuild of a rejecting call removes the object at most once. -/
theorem removedOnce_of_rejects (hreach : Reachable env c) (hstartup : c.startupComplete = true)
    (h : call.rejects env = some (x, err)) {stored : Configuration}
    (hstore : call.store env ord c = some stored)
    (hrun : (call.run env ord c).1 = (call.rebuild env ord stored).1) :
    RemovedOnce x.keyWithKind (call.rebuild env ord stored).2 := by
  have hstores := Call.stores_of_store hstore
  have htables := hstores.sameTables
  have hok : StoresOk env stored := hstores.storesOk hreach.tablesOk.stores
  have hstart : stored.startupComplete = true := htables.startupComplete.trans hstartup
  have hhosts : x.keyWithKind ∉ hostNames (call.rebuild env ord stored).1 := by
    rw [← hrun]
    intro hin
    obtain ⟨host, r, hr, hname⟩ := mem_names.mp hin
    exact not_shown_of_rejects hreach hstartup h (.holder hr)
      ((getKeyWithKind_eq r).symm.trans hname)
  have hlisteners : x.keyWithKind ∉ listenerNames (call.rebuild env ord stored).1 := by
    rw [← hrun]
    intro hin
    obtain ⟨place, r, hr, hname⟩ := mem_names.mp hin
    obtain ⟨tsc, htsc, rfl⟩ := get_listenerResources.mp hr
    exact not_shown_of_rejects hreach hstartup h (.listener htsc) hname
  have hhostChanges : ∀ s : Configuration, StoresOk env s → s.startupComplete = true →
      x.keyWithKind ∉ hostNames (rebuildHostsAfterStartup env ord s).1 →
        RemovedOnce x.keyWithKind (rebuildHostsAfterStartup env ord s).2 := by
    intro s hsok hs hnot
    rw [rebuildHostsAfterStartup, if_pos hs] at hnot ⊢
    exact removedOnce_rebuildHosts hsok hnot
  unfold Call.rebuild at hhosts hlisteners ⊢
  by_cases hl : call.rebuildsListeners = true
  · rw [if_pos hl] at hhosts hlisteners ⊢
    have hnotListening : x.keyWithKind ∉ listenerNames (rebuildListenerHosts stored ord).1 := by
      rw [listenerNames, (listeners_rebuildBoth env ord stored _).1] at hlisteners
      exact hlisteners
    have hremoved := removedOnce_rebuildListenerHosts hnotListening
    cases hh : call.rebuildsHosts env with
    | false =>
      rw [rebuildBoth_false]
      exact hremoved
    | true =>
      rw [hh, rebuildBoth_true] at hhosts
      rw [rebuildBoth_true]
      replace hhosts : x.keyWithKind ∉ hostNames
        (rebuildHostsAfterStartup env ord (rebuildListenerHosts stored ord).1).1 := hhosts
      have hok' : StoresOk env (rebuildListenerHosts stored ord).1 := hok.congr rfl rfl
      have hstart' : (rebuildListenerHosts stored ord).1.startupComplete = true := hstart
      refine hremoved.append (hhostChanges _ hok' hstart' hhosts) fun hin hin' => ?_
      -- no TransportServer has a host and a listener
      have hold : x.keyWithKind ∈ listenerNames c := by
        rw [listenerNames, ← htables.listenerHosts]
        apply mem_listenerNames_of_changed (s := stored) _ hnotListening hin
        rw [htables.listenerHosts]
        exact hreach.tablesOk.listeners.wf
      have hold' : x.keyWithKind ∈ hostNames c := by
        rw [rebuildHostsAfterStartup, if_pos hstart'] at hhosts hin'
        rw [hostNames, ← htables.hosts]
        apply mem_hostNames_of_changed hok' _ hhosts hin'
        exact htables.hosts ▸ hreach.tablesOk.hosts.wf
      exact Finset.disjoint_left.mp (hreach.tablesOk.disjoint hstartup) hold' hold
  · rw [if_neg hl] at hhosts ⊢
    exact hhostChanges stored hok hstart hhosts

/-- A rejected object leaves the tables and its error is reported once: with the change that
deletes the object or in a problem. -/
theorem rejected_object_is_reported_once (hreach : Reachable env c)
    (hstartup : c.startupComplete = true) (ord : Order)
    (h : call.rejects env = some (x, err)) :
    (∀ y, Shown env (call.run env ord c).1 y → y.keyWithKind ≠ x.keyWithKind) ∧
      ReportedOnce x err (call.run env ord c).2 := by
  refine ⟨fun y hy => not_shown_of_rejects hreach hstartup h hy, ?_⟩
  obtain ⟨stored, hstore, -, hrun⟩ := call.run_of_rejects ord c h
  have hremoved := removedOnce_of_rejects hreach hstartup h hstore (by rw [hrun])
  rw [hrun]
  exact hremoved.reject

end Calls

/-- A new version without rules, which are required. -/
def cafeIngressWithoutRules : Ingress where
  objectMeta := { cafeIngress.objectMeta with generation := 2 }
  spec := { rules := [] }

def withCafeIngress : Configuration :=
  Op.runs (Env.permissive false) {} [
    (.asGiven, .api (.addOrUpdateIngress cafeIngress)), (.asGiven, .completeStartup)]

theorem rejected_object_is_reported_once_cafe :
    withCafeIngress.startupComplete = true ∧
      ReportedOnce (.ingress cafeIngressWithoutRules) "spec.rules: Invalid value"
        ((Call.addOrUpdateIngress cafeIngressWithoutRules).run (Env.permissive false) .asGiven
          withCafeIngress).2 := by
  have hstartup : withCafeIngress.startupComplete = true := rfl
  have hrejects : (Call.addOrUpdateIngress cafeIngressWithoutRules).rejects (Env.permissive false) =
      some (.ingress cafeIngressWithoutRules, "spec.rules: Invalid value") := by
    simp [Call.rejects, rejectedWith, Env.permissive, cafeIngressWithoutRules]
  exact ⟨hstartup,
    (rejected_object_is_reported_once (Reachable.init.runs _) hstartup .asGiven hrejects).2⟩

end IngressController
