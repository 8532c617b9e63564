import IngressController.Configurator.FileIsolation

/-! # Updates of shared inputs

A change of a shared input, such as the ConfigMap, generates the files of all resources again. The
resources are updated one after another; after two failures in a row the rest is skipped.
-/

namespace IngressController.Configs

open Nginx Nginx.ConfigRollbackManager

structure IngressUpdate where
  objectMeta : ObjectMeta
  emptyHost : Bool := false
  protectFiles : List ProtectFile := []
  content : Except String String

structure VirtualServerUpdate where
  objectMeta : ObjectMeta
  hasOIDC : Bool := false
  protectFiles : List ProtectFile := []
  rendered : Except String RenderedVirtualServer

structure TransportServerUpdate where
  objectMeta : ObjectMeta
  content : Except String String
  passthrough : Option TlsPassthroughPair := none

structure ExtendedResources where
  ingressExes : List IngressUpdate := []
  mergeableIngresses : List IngressUpdate := []
  virtualServerExes : List VirtualServerUpdate := []
  transportServerExes : List TransportServerUpdate := []

inductive ResourceUpdateTask where
  | ingress (u : IngressUpdate)
  | mergeableIngress (u : IngressUpdate)
  | virtualServer (u : VirtualServerUpdate)
  | transportServer (u : TransportServerUpdate)

def buildResourceUpdateTasks (resources : ExtendedResources) : List ResourceUpdateTask :=
  resources.ingressExes.map .ingress ++ resources.mergeableIngresses.map .mergeableIngress ++
    resources.virtualServerExes.map .virtualServer ++
      resources.transportServerExes.map .transportServer

namespace ResourceUpdateTask

def kind : ResourceUpdateTask → String
  | ingress _ | mergeableIngress _ => ingressKind
  | virtualServer _ => virtualServerKind
  | transportServer _ => transportServerKind

def objectMeta : ResourceUpdateTask → ObjectMeta
  | ingress u | mergeableIngress u | virtualServer u | transportServer u => u.objectMeta

def update (host : Host) (shared : SharedTemplates) (cnf : Configurator) :
    ResourceUpdateTask → Outcome × Configurator
  | ingress u =>
    cnf.addOrUpdateIngress host shared u.objectMeta u.emptyHost u.protectFiles u.content
  | mergeableIngress u =>
    cnf.addOrUpdateMergeableIngress host shared u.objectMeta u.emptyHost u.protectFiles u.content
  | virtualServer u =>
    cnf.addOrUpdateVirtualServer host u.objectMeta u.hasOIDC u.protectFiles u.rendered
  | transportServer u =>
    cnf.addOrUpdateTransportServer host shared u.objectMeta u.content u.passthrough

end ResourceUpdateTask

/-- The inputs all resources share: the file of the DH parameters, the error of a custom template
and the contents of the shared files. -/
structure SharedInput where
  dhParam : Option String := none
  templateError : Option String := none
  mainConfig : Except String String
  shared : SharedTemplates

def dhparamFilename : String := "/etc/nginx/secrets/dhparam.pem"

def sharedInputFailureThreshold : Nat := 2

/-- The state of the loop over the resources. -/
structure ResourceUpdateResult where
  cnf : Configurator
  resourceErrors : GoMap String := ∅
  sharedInputFailure : Bool := false
  consecutiveFailures : Nat := 0
  processedCount : Nat := 0

namespace ResourceUpdateResult

def fail (res : ResourceUpdateResult) (task : ResourceUpdateTask) (err : String)
    (cnf : Configurator) : ResourceUpdateResult :=
  { res with
    cnf := cnf
    resourceErrors := res.resourceErrors.insert
      (getResourceKeyWithKind task.kind task.objectMeta)
      ("resource config rejected during shared-input regeneration (check the ConfigMap/Secret " ++
        "events for the triggering change): " ++ err)
    sharedInputFailure := sharedInputFailureThreshold ≤ res.consecutiveFailures + 1
    consecutiveFailures := res.consecutiveFailures + 1
    processedCount := res.processedCount + 1 }

def succeed (res : ResourceUpdateResult) (cnf : Configurator) : ResourceUpdateResult :=
  { res with cnf := cnf, consecutiveFailures := 0, processedCount := res.processedCount + 1 }

/-- `none` is a task that ends the process. -/
def apply (host : Host) (shared : SharedTemplates) (res : ResourceUpdateResult)
    (task : ResourceUpdateTask) : Option ResourceUpdateResult :=
  match task.update host shared res.cnf with
  | (.exited, _) => none
  | (.failed err, cnf) => some (res.fail task err cnf)
  | (.returned _, cnf) => some (res.succeed cnf)

end ResourceUpdateResult

/-- The loop of a rollback manager outside batch mode. -/
def applyResourceUpdates (host : Host) (shared : SharedTemplates) (res : ResourceUpdateResult) :
    List ResourceUpdateTask → Option ResourceUpdateResult
  | [] => some res
  | task :: rest =>
    if res.sharedInputFailure then some res
    else
      match res.apply host shared task with
      | none => none
      | some res => applyResourceUpdates host shared res rest

structure UpdateResult where
  err : Option String
  resourceErrors : GoMap String := ∅
  cnf : Configurator

namespace Configurator

variable (host : Host) (cnf : Configurator)

def createDHParam (dhParam : Option String) : Outcome × Configurator :=
  match dhParam with
  | none => (.returned false, cnf)
  | some content =>
    match cnf.manager.createFileAndWrite host dhparamFilename content with
    | none =>
      (.failed ("error when updating dhparams: failed to write dhparam file from " ++
        dhparamFilename), cnf)
    | some cm => cnf.calls (.returned true, cm)

/-- A main file that is rejected is rolled back and does not end the update. -/
def updateMainConfig (mainConfig : Except String String) : Outcome × Configurator :=
  match mainConfig with
  | .error _ => (.failed "error when writing main Config", cnf)
  | .ok content =>
    match cnf.manager.createMainConfig host content with
    | (.exited, cm) => cnf.calls (.exited, cm)
    | (_, cm) => cnf.calls (.returned true, cm)

def updateSharedFiles (input : SharedInput) : Outcome × Configurator :=
  andThen (cnf.createDHParam host input.dhParam) fun _ cnf =>
    match input.templateError with
    | some err => (.failed err, cnf)
    | none =>
      andThen (cnf.updateMainConfig host input.mainConfig) fun _ cnf =>
        (cnf.syncDefaultServerConfig host input.shared).map
          (Outcome.context "error syncing default server config: ") id

/-- After the early exit NGINX is not reloaded. -/
def finishUpdate (res : ResourceUpdateResult) : Option UpdateResult :=
  if res.sharedInputFailure then some ⟨none, res.resourceErrors, res.cnf⟩
  else
    match res.cnf.reload host with
    | (.exited, _) => none
    | (.failed err, cnf) =>
      some ⟨some ("NGINX reload failed after shared-input regeneration: " ++ err),
        res.resourceErrors, cnf⟩
    | (.returned _, cnf) => some ⟨none, res.resourceErrors, cnf⟩

/-- The update outside batch mode; `none` is the end of the process. -/
def updateConfig (input : SharedInput) (resources : ExtendedResources) : Option UpdateResult :=
  match cnf.updateSharedFiles host input with
  | (.exited, _) => none
  | (.failed err, cnf) => some { err, cnf }
  | (.returned _, cnf) =>
    (applyResourceUpdates host input.shared { cnf := cnf }
      (buildResourceUpdateTasks resources)).bind (finishUpdate host)

end Configurator

theorem path_ingress (m : ObjectMeta) (emptyHost : Bool) :
    getFilenameForConfig (Configurator.ingressConfigName m emptyHost) =
      if emptyHost then defaultServerConfFilename else ingressPath m := by
  cases emptyHost with
  | true => exact getFilenameForConfig_defaultServer
  | false => rfl

namespace ResourceUpdateTask

def path : ResourceUpdateTask → String
  | ingress u | mergeableIngress u =>
    getFilenameForConfig (Configurator.ingressConfigName u.objectMeta u.emptyHost)
  | virtualServer u => serverPath u.objectMeta
  | transportServer u => transportServerPath u.objectMeta

def content : ResourceUpdateTask → Option String
  | ingress u | mergeableIngress u => u.content.toOption
  | virtualServer u => u.rendered.toOption.map RenderedVirtualServer.server
  | transportServer u => u.content.toOption

def ownPath : ResourceUpdateTask → String
  | ingress u | mergeableIngress u => ingressPath u.objectMeta
  | virtualServer u => serverPath u.objectMeta
  | transportServer u => transportServerPath u.objectMeta

def isForEmptyHost : ResourceUpdateTask → Bool
  | ingress u | mergeableIngress u => u.emptyHost
  | virtualServer _ | transportServer _ => false

def ingressName : ResourceUpdateTask → Option String
  | ingress u | mergeableIngress u => some (objectMetaToFileName u.objectMeta).val
  | virtualServer _ | transportServer _ => none

/-- The files that are written without a test. -/
def sideFiles : ResourceUpdateTask → List (String × String)
  | ingress u | mergeableIngress u => u.protectFiles.map fun f => (f.path, f.content)
  | virtualServer u =>
    (u.protectFiles.map fun f => (f.path, f.content)) ++
      ((u.rendered.toOption.bind RenderedVirtualServer.oidc).map fun content =>
        (oidcPath u.objectMeta, content)).toList
  | transportServer _ => []

/-- A resource whose new file is valid. -/
def IsGood (valid : String → String → Prop) (task : ResourceUpdateTask) : Prop :=
  ∃ content, task.content = some content ∧ valid task.path content

variable {task : ResourceUpdateTask}

theorem isGood_iff {valid : String → String → Prop} {content : String}
    (h : task.content = some content) : task.IsGood valid ↔ valid task.path content := by
  constructor
  · rintro ⟨content', h', hvalid⟩
    rw [h] at h'
    cases h'
    exact hvalid
  · exact fun hvalid => ⟨content, h, hvalid⟩

theorem not_isGood {valid : String → String → Prop}
    (h : task.content = none) : ¬ task.IsGood valid := by
  rintro ⟨content, hsome, -⟩
  rw [h] at hsome
  cases hsome

theorem path_eq (task : ResourceUpdateTask) :
    task.path = if task.isForEmptyHost then defaultServerConfFilename else task.ownPath := by
  cases task with
  | ingress u | mergeableIngress u => exact path_ingress u.objectMeta u.emptyHost
  | virtualServer u | transportServer u => rfl

/-- A file named after a resource is no shared file and no OIDC file. -/
theorem ownPath_free (task : ResourceUpdateTask) :
    ¬ IsShared task.ownPath ∧ ∀ m, task.ownPath ≠ oidcPath m := by
  have hfiles : ∀ o : Object, task.ownPath ∈ o.files → ¬ IsShared task.ownPath := fun _ h =>
    not_shared_of_mem_files h
  have hletter : task.ownPath.toList[11]? ≠ some 'o' → ∀ m, task.ownPath ≠ oidcPath m := by
    intro hne m heq
    rw [heq] at hne
    exact hne (letter_oidcConf _)
  have hconf : ∀ name : FileName, (getFilenameForConfig name).toList[11]? ≠ some 'o' := by
    intro name
    rw [letter_conf]
    decide
  cases task with
  | ingress u | mergeableIngress u =>
    exact ⟨hfiles (.ingress u.objectMeta) List.mem_cons_self, hletter (hconf _)⟩
  | virtualServer u =>
    exact ⟨hfiles (.virtualServer u.objectMeta) List.mem_cons_self, hletter (hconf _)⟩
  | transportServer u =>
    refine ⟨hfiles (.transportServer u.objectMeta) List.mem_cons_self, hletter ?_⟩
    rw [ownPath, (letters_transportServer _).1]
    decide

theorem ownPath_of_ingressName {task' : ResourceUpdateTask} {name : String}
    (h : task.ingressName = some name) (h' : task'.ingressName = some name) :
    task.ownPath = task'.ownPath := by
  have hpath : ∀ (task : ResourceUpdateTask), task.ingressName = some name →
      ∃ file : FileName, file.val = name ∧ task.ownPath = getFilenameForConfig file := by
    intro task h
    cases task with
    | ingress | mergeableIngress => exact ⟨_, Option.some.inj h, rfl⟩
    | virtualServer u | transportServer u => cases h
  obtain ⟨file, hfile, hown⟩ := hpath task h
  obtain ⟨file', hfile', hown'⟩ := hpath task' h'
  rw [hown, hown', Subtype.ext (hfile.trans hfile'.symm)]

theorem exists_ingressName (h : task.isForEmptyHost = true) :
    ∃ name, task.ingressName = some name := by
  cases task with
  | ingress | mergeableIngress => exact ⟨_, rfl⟩
  | virtualServer u | transportServer u => cases h

end ResourceUpdateTask

/-- The test accepts a tree exactly if each of its files is valid. -/
def TestsEach (host : Host) (valid : String → String → Prop) : Prop :=
  ∀ files : FileTree, host.passes files = true ↔
    ∀ p content, files[p]? = some content → valid p content

/-- Every good resource has its new file, and NGINX has loaded what is on disk. -/
structure IsRegenerated (valid : String → String → Prop) (tasks : List ResourceUpdateTask)
    (cnf : Configurator) : Prop where
  written : ∀ task ∈ tasks, ∀ content, task.content = some content → valid task.path content →
    cnf.manager.files[task.path]? = some content
  loaded : cnf.manager.loaded = cnf.manager.files

/-- What an update of the resources writes without a test is valid, and no two resources have the
same file. -/
structure WritesValid (valid : String → String → Prop) (shared : SharedTemplates)
    (tasks : List ResourceUpdateTask) : Prop where
  version : ∀ configVersion, valid configVersionFilename (generateVersionConfig configVersion)
  hosts : ∀ u, .transportServer u ∈ tasks → ∀ pair, u.passthrough = some pair →
    ∀ pairs : GoMap TlsPassthroughPair, ∃ content,
      shared.tlsPassthroughHosts (pairs.insert (getResourceKey u.objectMeta) pair) = .ok content ∧
        valid tlsPassthroughHostsFilename content
  sideFiles : ∀ task ∈ tasks, ∀ f ∈ task.sideFiles, valid f.1 f.2
  distinct : tasks.Pairwise fun task task' =>
    task.ownPath ≠ task'.ownPath ∧ ¬ (task.isForEmptyHost = true ∧ task'.isForEmptyHost = true)

def RendersDefault (valid : String → String → Prop) (shared : SharedTemplates) : Prop :=
  ∃ content, shared.defaultServer = .ok content ∧ valid defaultServerConfFilename content

/-- An Ingress serves the empty host, and no update moves it to another host. -/
def ServesEmptyHost (tasks : List ResourceUpdateTask) (cnf : Configurator) : Prop :=
  ∃ name, cnf.ingresses[name]? = some true ∧
    ∀ task ∈ tasks, task.ingressName = some name → task.isForEmptyHost = true

/-- The default server is valid, or none is rendered. -/
def KeepsDefault (valid : String → String → Prop) (shared : SharedTemplates)
    (tasks : List ResourceUpdateTask) (cnf : Configurator) : Prop :=
  RendersDefault valid shared ∨ ServesEmptyHost tasks cnf

/-- No two resources in a row are bad. -/
def NoTwoBad (valid : String → String → Prop) (tasks : List ResourceUpdateTask) : Prop :=
  tasks.IsChain fun task task' => task.IsGood valid ∨ task'.IsGood valid

end IngressController.Configs
