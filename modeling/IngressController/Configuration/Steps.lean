import IngressController.Configuration.Startup

/-! # Steps of a run as rebuilds

Every operation writes the stores and then rebuilds some of the two tables. So the
tables of a reachable configuration always come from a rebuild.
-/

namespace IngressController

open IngressController.Configuration ChangeLog List

variable (changes : List ResourceChange)

def announced : List (Operation × String) :=
  changes.map fun change => (change.op, change.resource.getKeyWithKind)

theorem announced_append (xs ys : List ResourceChange) :
    announced (xs ++ ys) = announced xs ++ announced ys :=
  map_append

def logged : List (Operation × Resource) :=
  changes.map fun change => (change.op, change.resource)

theorem logged_append (xs ys : List ResourceChange) :
    logged (xs ++ ys) = logged xs ++ logged ys :=
  map_append

theorem announced_eq_logged :
    announced changes = (logged changes).map fun e => (e.1, e.2.getKeyWithKind) := by
  rw [announced, logged, map_map]
  rfl

theorem announced_of_log {report report' : Report} (h : report.log = report'.log) :
    announced report.changes = announced report'.changes := by
  have hnames := congrArg (map fun entry => (entry.1, entry.2.getKeyWithKind)) h
  rw [Report.log, Report.log, map_map, map_map] at hnames
  exact hnames

theorem announced_referToLatest {resources : GoMap Resource}
    (h : ∀ (o : Resource) r, resources[o.getKeyWithKind]? = some r →
      r.getKeyWithKind = o.getKeyWithKind) (changes : List ResourceChange) :
    announced (referToLatest resources changes) = announced changes := by
  rw [announced, referToLatest, map_map]
  apply map_congr_left
  intro change _
  simp only [Function.comp_apply]
  cases hr : resources[change.resource.getKeyWithKind]? with
  | none => rfl
  | some r => simp [h _ r hr]

section Rebuilding

variable (env : Env) (s : Configuration) (ord : Order)

theorem announced_rebuildHosts (hok : StoresOk env s) :
    announced (rebuildHosts env s ord).2.1 = announced (tableLog Resource.getKeyWithKind
        (detectChangesInHosts s.hosts (newHosts env s ord)).removed
        (detectChangesInHosts s.hosts (newHosts env s ord)).updated
        (detectChangesInHosts s.hosts (newHosts env s ord)).added s.hosts (newHosts env s ord)) :=
  announced_referToLatest (fun _ _ hr => name_of_get_warnedResources hok.ingresses hr) _

/-- The changes of the listeners are those of the two tables: no configuration is filed under the
name of a change. -/
theorem rebuildListenerHosts_changes :
    (rebuildListenerHosts s ord).2.1 = tableLog Resource.getKeyWithKind
        (detectChangesInListenerHosts s.listenerHosts (newListenerHosts s ord)).removed
        (detectChangesInListenerHosts s.listenerHosts (newListenerHosts s ord)).updated
        (detectChangesInListenerHosts s.listenerHosts (newListenerHosts s ord)).added
        (listenerResources s.listenerHosts) (listenerResources (newListenerHosts s ord)) := by
  refine map_id'' (fun change => ?_) _
  have hnone : ((buildListenerHostsAndTSConfigurations s ord).tsConfigs.map fun _ tsc =>
      Resource.transportServer tsc)[change.resource.getKeyWithKind]? = none := by
    rw [Std.ExtTreeMap.getElem?_map, Option.map_eq_none_iff, Option.eq_none_iff_forall_ne_some]
    intro tsc htsc
    obtain ⟨e, -, hname⟩ := (settled_listeners s ord).known _ tsc htsc
    rw [Resource.getKeyWithKind_eq] at hname
    exact getResourceKey_ne_withKind _ _ _ hname
  simp only [hnone]

end Rebuilding

variable (env : Env) (ord : Order) (c : Configuration)

/-- The configuration from which an operation rebuilds: the tables are the old ones. -/
def Op.stored : Op → Configuration
  | .api call => (call.store env ord c).getD c
  | .completeStartup => { c with startupComplete := true }
  | .haltIfVSConfigInvalid vsNew =>
    match env.validateVirtualServer vsNew with
    | some _ => { c with virtualServers := c.virtualServers.remove (objectKey vsNew) }
    | none => { c with virtualServers := c.virtualServers.put vsNew }
  | .haltIfVSRConfigInvalid vsrNew =>
    match env.validateVirtualServerRoute vsrNew with
    | some _ => c
    | none => { c with virtualServerRoutes := c.virtualServerRoutes.put vsrNew }

/-- The tables and changes after rebuilding some of the tables. -/
structure Rebuilds (env : Env) (ord : Order) (s : Configuration) (listeners hosts : Bool)
    (after : Configuration) (report : Report) : Prop where
  hosts_eq : after.hosts = if hosts then (rebuildHosts env s ord).1.hosts else s.hosts
  listenerHosts_eq : after.listenerHosts =
    if listeners then newListenerHosts s ord else s.listenerHosts
  log_eq : report.log =
    (if listeners then logged (rebuildListenerHosts s ord).2.1 else []) ++
      (if hosts then logged (rebuildHosts env s ord).2.1 else [])

theorem Rebuilds.changes_eq {env : Env} {ord : Order} {s after : Configuration}
    {listeners hosts : Bool} {report : Report}
    (h : Rebuilds env ord s listeners hosts after report) :
    announced report.changes =
      (if listeners then announced (rebuildListenerHosts s ord).2.1 else []) ++
        (if hosts then announced (rebuildHosts env s ord).2.1 else []) := by
  have hlog : logged report.changes = _ := h.log_eq
  simp only [announced_eq_logged, hlog, map_append]
  cases listeners <;> cases hosts <;> rfl

def Op.rebuildsHosts : Op → Bool
  | .api call => (call.store env ord c).isSome && call.rebuildsHosts env && c.startupComplete
  | .completeStartup | .haltIfVSConfigInvalid _ => true
  | .haltIfVSRConfigInvalid vsrNew => (env.validateVirtualServerRoute vsrNew).isNone

def Op.rebuildsListeners : Op → Bool
  | .api call => (call.store env ord c).isSome && call.rebuildsListeners
  | _ => false

section Steps

variable (env : Env) (ord : Order) (c : Configuration)

theorem rebuilds_rebuildHostsAfterStartup :
    Rebuilds env ord c false c.startupComplete (rebuildHostsAfterStartup env ord c).1
      (rebuildHostsAfterStartup env ord c).2 := by
  unfold rebuildHostsAfterStartup
  cases c.startupComplete <;> exact ⟨rfl, rfl, rfl⟩

theorem rebuilds_rebuildBoth (hostsToo : Bool) :
    Rebuilds env ord c true (hostsToo && c.startupComplete) (rebuildBoth env ord hostsToo c).1
      (rebuildBoth env ord hostsToo c).2 := by
  cases hostsToo with
  | false => exact ⟨rfl, rfl, (append_nil _).symm⟩
  | true =>
    have h := rebuilds_rebuildHostsAfterStartup env ord (rebuildListenerHosts c ord).1
    have hstartup : (rebuildListenerHosts c ord).1.startupComplete = c.startupComplete := rfl
    rw [hstartup] at h
    rw [rebuildBoth_true, Bool.true_and]
    refine ⟨h.hosts_eq, h.listenerHosts_eq, ?_⟩
    have hlog : logged (rebuildHostsAfterStartup env ord (rebuildListenerHosts c ord).1).2.changes
      = _ := h.log_eq
    have happend := logged_append (rebuildListenerHosts c ord).2.1
      (rebuildHostsAfterStartup env ord (rebuildListenerHosts c ord).1).2.changes
    rw [hlog] at happend
    exact happend

theorem Call.rebuilds_rebuild (call : Call) :
    Rebuilds env ord c call.rebuildsListeners (call.rebuildsHosts env && c.startupComplete)
      (call.rebuild env ord c).1 (call.rebuild env ord c).2 := by
  unfold Call.rebuild
  by_cases hl : call.rebuildsListeners = true
  · rw [if_pos hl, hl]
    exact rebuilds_rebuildBoth env ord c _
  · have hh : call.rebuildsHosts env = true := by
      cases call <;> first | rfl | exact absurd rfl hl
    rw [if_neg hl, Bool.eq_false_iff.mpr hl, hh, Bool.true_and]
    exact rebuilds_rebuildHostsAfterStartup env ord c

theorem Call.rebuilds (call : Call) :
    Rebuilds env ord ((call.store env ord c).getD c)
      ((Op.api call).rebuildsListeners env ord c) ((Op.api call).rebuildsHosts env ord c)
      (call.run env ord c).1 (call.run env ord c).2 := by
  simp only [Op.rebuildsListeners, Op.rebuildsHosts]
  obtain ⟨hs, hrun⟩ | ⟨stored, hs, hrun⟩ := Call.run_eq env ord c call
  · rw [hs, hrun]
    exact ⟨rfl, rfl, rfl⟩
  · have h := call.rebuilds_rebuild env ord stored
    rw [← hrun.1, (Call.stores_of_store hs).sameTables.startupComplete] at h
    simp only [hs, Option.getD_some, Option.isSome_some, Bool.true_and]
    exact ⟨h.hosts_eq, h.listenerHosts_eq, hrun.2.trans h.log_eq⟩

/-- The weight path rebuilds the hosts and may write a VirtualServer afterwards. -/
theorem rebuilds_haltIfVSConfigInvalid (vsNew : VirtualServer) :
    Rebuilds env ord ((Op.haltIfVSConfigInvalid vsNew).stored env ord c) false true
      (c.haltIfVSConfigInvalid env ord vsNew).1 (c.haltIfVSConfigInvalid env ord vsNew).2 := by
  have hput : ∀ {s after : Configuration} {report : Report},
      Rebuilds env ord s false true after report →
      Rebuilds env ord s false true
        { after with virtualServers := after.virtualServers.put vsNew } report :=
    fun h => ⟨h.hosts_eq, h.listenerHosts_eq, h.log_eq⟩
  simp only [Configuration.haltIfVSConfigInvalid, Op.stored]
  cases env.validateVirtualServer vsNew with
  | none =>
    simp only
    split
    · exact ⟨rfl, rfl, rfl⟩
    · exact hput ⟨rfl, rfl, rfl⟩
  | some err =>
    have herror : ∀ (kind : String) (changes : List ResourceChange),
        logged (changes.map fun change =>
          if change.resource.getKeyWithKind = kind then { change with error := err }
          else change) = logged changes := by
      intro kind changes
      rw [logged, map_map]
      apply map_congr_left
      intro change _
      simp only [Function.comp_apply]
      split <;> rfl
    simp only
    split
    · exact ⟨rfl, rfl, herror _ _⟩
    · exact hput ⟨rfl, rfl, herror _ _⟩

theorem Op.rebuilds_run (op : Op) :
    Rebuilds env ord (op.stored env ord c) (op.rebuildsListeners env ord c)
      (op.rebuildsHosts env ord c) (op.run env ord c).1 (op.run env ord c).2 := by
  cases op with
  | api call => exact call.rebuilds env ord c
  | completeStartup =>
    exact rebuilds_rebuildHostsAfterStartup env ord { c with startupComplete := true }
  | haltIfVSConfigInvalid vsNew => exact rebuilds_haltIfVSConfigInvalid env ord c vsNew
  | haltIfVSRConfigInvalid vsrNew =>
    simp only [Op.run, Configuration.haltIfVSRConfigInvalid, Op.stored, Op.rebuildsListeners,
      Op.rebuildsHosts]
    cases env.validateVirtualServerRoute vsrNew <;> exact ⟨rfl, rfl, rfl⟩

theorem Op.rebuilds (op : Op) : ∃ listeners hosts,
    Rebuilds env ord (op.stored env ord c) listeners hosts (op.run env ord c).1
      (op.run env ord c).2 :=
  ⟨_, _, op.rebuilds_run env ord c⟩

theorem Op.tables_stored (op : Op) : (op.stored env ord c).hosts = c.hosts ∧
    (op.stored env ord c).listenerHosts = c.listenerHosts := by
  cases op with
  | api call =>
    cases hs : call.store env ord c with
    | none => simp [Op.stored, hs]
    | some stored =>
      have htables := (Call.stores_of_store hs).sameTables
      simpa [Op.stored, hs] using ⟨htables.hosts, htables.listenerHosts⟩
  | completeStartup => exact ⟨rfl, rfl⟩
  | haltIfVSConfigInvalid | haltIfVSRConfigInvalid =>
    simp only [Op.stored]
    split <;> exact ⟨rfl, rfl⟩

variable {env c}

theorem StoresOk.stored (h : StoresOk env c) (ord : Order) (op : Op) :
    StoresOk env (op.stored env ord c) := by
  cases op with
  | api call =>
    cases hs : call.store env ord c with
    | none => simpa [Op.stored, hs] using h
    | some stored => simpa [Op.stored, hs] using (Call.stores_of_store hs).storesOk h
  | completeStartup => exact h.congr rfl rfl
  | haltIfVSConfigInvalid | haltIfVSRConfigInvalid =>
    simp only [Op.stored]
    split <;> exact h.congr rfl rfl

end Steps

structure Rebuilt (env : Env) (c : Configuration) : Prop where
  hosts : ∃ s ord, StoresOk env s ∧ c.hosts = (rebuildHosts env s ord).1.hosts
  listeners : ∃ s ord, c.listenerHosts = newListenerHosts s ord

theorem Reachable.rebuilt {env : Env} {c : Configuration} (h : Reachable env c) :
    Rebuilt env c := by
  induction h with
  | init => exact ⟨⟨{}, .asGiven, (TablesOk.init env).stores,
      (builtHosts_init env .asGiven false).hosts⟩,
      {}, .asGiven, (builtListeners_init .asGiven false).listenerHosts⟩
  | step hreach ord op ih =>
    rename_i c
    obtain ⟨listeners, hosts, hstep⟩ := op.rebuilds env ord c
    obtain ⟨hh, hl⟩ := op.tables_stored env ord c
    constructor
    · rw [hstep.hosts_eq, hh]
      split
      · exact ⟨_, ord, hreach.tablesOk.stores.stored ord op, rfl⟩
      · exact ih.hosts
    · rw [hstep.listenerHosts_eq, hl]
      split
      · exact ⟨_, ord, rfl⟩
      · exact ih.listeners

end IngressController
