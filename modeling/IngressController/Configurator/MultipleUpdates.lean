import IngressController.Configurator.Regeneration

/-! # Updates of several resources

The operations on the resources that one change affects. The first failure ends the loop, and NGINX
is reloaded after the loop only.
-/

namespace IngressController.Configs

open Nginx Nginx.ConfigRollbackManager Configurator List
open ResourceUpdateTask (isGood_iff rejected)

/-- The state of a loop that ends at the first error. -/
structure EachUpdate where
  cnf : Configurator
  configsChanged : Bool := false

section

variable (host : Host) (shared : SharedTemplates)

/-- `none` is the end of the process. -/
def updateEach (text : ResourceUpdateTask → String) (s : EachUpdate) :
    List ResourceUpdateTask → Option (Option String × EachUpdate)
  | [] => some (none, s)
  | task :: rest =>
    match task.update host shared s.cnf with
    | (.exited, _) => none
    | (.failed err, cnf) => some (some (text task ++ err), { s with cnf := cnf })
    | (.returned changed, cnf) => updateEach text ⟨cnf, s.configsChanged || changed⟩ rest

/-- The reload after the loop. -/
def finishEach (text : String) (reloadIfUnchanged : Bool) (ended : Option String × EachUpdate) :
    Option UpdateResult :=
  if ended.1 = none ∧ (ended.2.configsChanged || reloadIfUnchanged) = true then
    match ended.2.cnf.reload host with
    | (.exited, _) => none
    | (.failed err, cnf) => some ⟨some (text ++ err), ∅, cnf⟩
    | (.returned _, cnf) => some ⟨none, ∅, cnf⟩
  else some ⟨ended.1, ∅, ended.2.cnf⟩

namespace Configurator

variable (cnf : Configurator)

def addOrUpdateEach (text : ResourceUpdateTask → String) (reloadText : String)
    (tasks : List ResourceUpdateTask) (reloadIfUnchanged : Bool) : Option UpdateResult :=
  (updateEach host shared text { cnf } tasks).bind (finishEach host reloadText reloadIfUnchanged)

def addOrUpdateIngresses (ingExes : List IngressUpdate) : Option UpdateResult :=
  cnf.addOrUpdateEach host shared (fun _ => "")
    "error when reloading NGINX when updating Ingresses: " (ingExes.map .ingress) true

def addOrUpdateVirtualServers (virtualServerExes : List VirtualServerUpdate) :
    Option UpdateResult :=
  cnf.addOrUpdateEach host shared (fun _ => "")
    "error when reloading NGINX when updating Policy: " (virtualServerExes.map .virtualServer) true

def addOrUpdateResources (resources : ExtendedResources) (reloadIfUnchanged : Bool) :
    Option UpdateResult :=
  cnf.addOrUpdateEach host shared
    (fun task => "error adding or updating resource " ++ getResourceKey task.objectMeta ++ ": ")
    "error when reloading NGINX when updating resources: " (buildResourceUpdateTasks resources)
    reloadIfUnchanged

end Configurator

/-- The operations that update several resources. -/
inductive MultipleUpdate where
  | ingresses (ingExes : List IngressUpdate)
  | virtualServers (virtualServerExes : List VirtualServerUpdate)
  | resources (resources : ExtendedResources) (reloadIfUnchanged : Bool)

namespace MultipleUpdate

def tasks : MultipleUpdate → List ResourceUpdateTask
  | ingresses ingExes => ingExes.map .ingress
  | virtualServers virtualServerExes => virtualServerExes.map .virtualServer
  | resources all _ => buildResourceUpdateTasks all

def reloadIfUnchanged : MultipleUpdate → Bool
  | resources _ reloadIfUnchanged => reloadIfUnchanged
  | _ => true

def run (cnf : Configurator) : MultipleUpdate → Option UpdateResult
  | ingresses ingExes => cnf.addOrUpdateIngresses host shared ingExes
  | virtualServers virtualServerExes => cnf.addOrUpdateVirtualServers host shared virtualServerExes
  | resources all reloadIfUnchanged =>
    cnf.addOrUpdateResources host shared all reloadIfUnchanged

theorem exists_run_eq (op : MultipleUpdate) : ∃ text reloadText, ∀ cnf, op.run host shared cnf =
    cnf.addOrUpdateEach host shared text reloadText op.tasks op.reloadIfUnchanged := by
  cases op <;> exact ⟨_, _, fun _ => rfl⟩

end MultipleUpdate

end

section

variable {host : Host} {valid : String → String → Prop} {shared : SharedTemplates}
  (hrel : Reliable host valid) {tasks done rest good : List ResourceUpdateTask}
  (hwrites : WritesValid valid shared tasks) {loaded : FileTree}
include hrel hwrites

/-- The update of a resource keeps the files of those after it. -/
theorem InLoop.keeps {task other : ResourceUpdateTask} {cnf : Configurator}
    (h : InLoop host valid shared loaded tasks done cnf) (htasks : tasks = done ++ task :: rest)
    (hother : other ∈ rest) (hserves : other.isForEmptyHost = true → ServesEmptyHost tasks cnf) :
    (task.update host shared cnf).2.manager.files[other.path]? =
      cnf.manager.files[other.path]? := by
  have hdistinct := hwrites.distinct
  rw [htasks] at hdistinct
  obtain ⟨hpath, hhosts⟩ := rel_of_pairwise_cons (pairwise_append.mp hdistinct).2.1 hother
  refine (h.next hrel hwrites htasks).1.keeps ⟨hpath.symm, fun h => hhosts h.symm⟩ fun hhost => ?_
  obtain ⟨name, hname, hall⟩ := hserves hhost
  exact ⟨name, hname, fun hsame => hhosts ⟨hall task (by simp [htasks]) hsame, hhost⟩⟩

/-- Good resources are updated one after another. -/
theorem InLoop.each {s : EachUpdate} (htasks : tasks = done ++ (good ++ rest))
    (hgood : ∀ task ∈ good, task.IsGood valid)
    (h : InLoop host valid shared loaded tasks done s.cnf) (text : ResourceUpdateTask → String) :
    ∃ s', updateEach host shared text s (good ++ rest) = updateEach host shared text s' rest ∧
      InLoop host valid shared loaded tasks (done ++ good) s'.cnf ∧
      s'.cnf.manager.loaded = s.cnf.manager.loaded ∧
      ∀ other ∈ rest, (other.isForEmptyHost = true → ServesEmptyHost tasks s.cnf) →
        s'.cnf.manager.files[other.path]? = s.cnf.manager.files[other.path]? ∧
          (other.isForEmptyHost = true → ServesEmptyHost tasks s'.cnf) := by
  induction good generalizing done s with
  | nil => exact ⟨s, rfl, by rwa [append_nil], rfl, fun _ _ hserves => ⟨rfl, hserves⟩⟩
  | cons task good ih =>
    have htask : task ∈ tasks := by simp [htasks]
    obtain ⟨happlied, hnext⟩ := h.next hrel hwrites htasks
    have hkeeps : ∀ other ∈ rest, (other.isForEmptyHost = true → ServesEmptyHost tasks s.cnf) → _ :=
      fun other hother => h.keeps hrel hwrites htasks (mem_append_right good hother)
    obtain ⟨changed, files, tests, hreturned, hmanager, -⟩ :=
      happlied.good (hgood task mem_cons_self)
    rw [cons_append, updateEach]
    generalize task.update host shared s.cnf = result at happlied hnext hkeeps hreturned hmanager
    obtain ⟨outcome, cnf⟩ := result
    cases hreturned
    obtain ⟨s', hrun, hloop, hloaded, hkeeps'⟩ := ih (s := ⟨cnf, s.configsChanged || changed⟩)
      (by rw [htasks, append_assoc]; rfl) (fun t ht => hgood t (mem_cons_of_mem _ ht)) hnext
    refine ⟨s', hrun, by rwa [append_assoc] at hloop, ?_, fun other hother hserves => ?_⟩
    · rw [hloaded, hmanager]
      rfl
    · obtain ⟨hsame, hserves'⟩ := hkeeps' other hother fun hhost =>
        (hserves hhost).step happlied htask
      exact ⟨hsame.trans (hkeeps other hother hserves), hserves'⟩

omit hwrites in
theorem reload_starts (hstarts : ∀ n files, host.reloadError n files = none)
    {cm : ConfigRollbackManager} (hserving : cm.IsServing host) :
    ∃ cm', cm.reload host = (.returned true, cm') ∧ cm'.loaded = cm'.files := by
  have hpasses := passes_insert hrel hserving.passes (hrel.version (cm.configVersion + 1))
  unfold ConfigRollbackManager.reload updateConfigVersionFile
  rw [createFileAndWrite_of_writable hrel.writable]
  dsimp only
  rw [hstarts, files_update, hpasses]
  exact ⟨_, rfl, rfl⟩

variable {cnf : Configurator} (h : InLoop host valid shared loaded tasks [] (cnf.loading loaded))
  (text : ResourceUpdateTask → String) (reloadText : String) (reloadIfUnchanged : Bool)
include h

theorem addOrUpdateEach_good (hstarts : ∀ n files, host.reloadError n files = none)
    (hgood : ∀ task ∈ tasks, task.IsGood valid) :
    ∃ result, (cnf.loading loaded).addOrUpdateEach host shared text reloadText tasks true =
      some result ∧ IsRegenerated valid tasks result.cnf := by
  obtain ⟨s, hrun, hloop, -⟩ := h.each (s := ⟨cnf.loading loaded, false⟩) hrel
    hwrites (show tasks = [] ++ (tasks ++ []) by simp) hgood text
  rw [append_nil] at hrun
  obtain ⟨cm, hreload, -⟩ := reload_starts hrel hstarts hloop.serving
  have hreloaded : s.cnf.reload host = (.returned true, { s.cnf with manager := cm }) := by
    rw [Configurator.reload, if_pos hloop.reloads, hreload]
    rfl
  rw [addOrUpdateEach, hrun, updateEach, Option.bind_some, finishEach,
    if_pos ⟨rfl, Bool.or_true _⟩, hreloaded]
  exact ⟨_, rfl, hloop.holds.isRegenerated hrel hloop.reloads hreloaded⟩

/-- The first bad resource ends the call. -/
theorem addOrUpdateEach_bad {before : List ResourceUpdateTask} {task : ResourceUpdateTask}
    (htasks : tasks = before ++ task :: rest) (hgood : ∀ t ∈ before, t.IsGood valid)
    (hbad : ¬ task.IsGood valid)
    (hserves : ∀ t ∈ tasks, t.isForEmptyHost = true → ServesEmptyHost tasks cnf) :
    ∃ result cm tests, (cnf.loading loaded).addOrUpdateEach host shared text reloadText tasks
        reloadIfUnchanged = some result ∧
      result.cnf.manager = task.rejected host cm tests ∧ cm.loaded = loaded ∧ cm.IsServing host ∧
      InLoop host valid shared loaded tasks (before ++ [task]) result.cnf ∧
      (task.path ∈ task.withSideFiles cm.files ↔ task.path ∈ cnf.manager.files) ∧
      ∀ t ∈ rest, result.cnf.manager.files[t.path]? = cnf.manager.files[t.path]? := by
  obtain ⟨s, hrun, hloop, hloaded, hkeeps⟩ := h.each (s := ⟨cnf.loading loaded, false⟩) hrel
    hwrites (htasks.trans (nil_append _).symm) hgood text
  obtain ⟨happlied, hnext⟩ := hloop.next hrel hwrites htasks
  obtain ⟨⟨err, hfailed⟩, -, tests, hmanager⟩ := happlied.bad hbad
  have hkept : ∀ t ∈ task :: rest, _ := fun t ht => hkeeps t ht (hserves t (by simp_all))
  refine ⟨⟨some (text task ++ err), ∅, (task.update host shared s.cnf).2⟩, s.cnf.manager, tests, ?_,
    hmanager, hloaded, hloop.serving, hnext, ?_, fun t ht => ?_⟩
  · rw [addOrUpdateEach, htasks, hrun, updateEach]
    generalize task.update host shared s.cnf = result at hfailed
    obtain ⟨outcome, cnf'⟩ := result
    cases hfailed
    rfl
  · rw [task.mem_withSideFiles, FileTree.mem_iff, FileTree.mem_iff, (hkept task mem_cons_self).1]
    rfl
  · obtain ⟨hsame, hserves'⟩ := hkept t (mem_cons_of_mem _ ht)
    exact (hloop.keeps hrel hwrites htasks ht hserves').trans hsame

omit hrel hwrites h in
theorem exists_firstBad (h : ¬ ∀ task ∈ tasks, task.IsGood valid) : ∃ before task rest,
    tasks = before ++ task :: rest ∧ (∀ t ∈ before, t.IsGood valid) ∧ ¬ task.IsGood valid := by
  classical
  have hfound : tasks.find? (¬ ·.IsGood valid) ≠ none := by simpa using h
  obtain ⟨task, hfound⟩ := Option.ne_none_iff_exists'.mp hfound
  obtain ⟨hbad, before, rest, htasks, hgood⟩ := find?_eq_some_iff_append.mp hfound
  exact ⟨before, task, rest, htasks, by simpa using hgood, by simpa using hbad⟩

end

end IngressController.Configs
