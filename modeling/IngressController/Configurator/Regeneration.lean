import Mathlib.Data.List.Chain
import IngressController.Configurator.UpdateConfig

/-! # Regenerated files

An update of the shared inputs writes the files of all good resources and loads them, unless two
resources in a row are bad: then the other resources and the reload are skipped.
-/

namespace IngressController.Nginx

/-- The host on which reloads end otherwise. -/
def Host.reloading (host : Host) (reloadError : Nat → FileTree → Option String) : Host :=
  { host with reloadError }

/-- What a rejected write leaves: a file that was there comes back, and NGINX is reloaded. -/
def ConfigRollbackManager.restored (host : Host) (cm : ConfigRollbackManager) (path : String)
    (tests : Nat) : ConfigRollbackManager :=
  if path ∈ cm.files then ((cm.update cm.files tests).reload host).2 else cm.update cm.files tests

end IngressController.Nginx

namespace IngressController.Configs

open Nginx Nginx.ConfigRollbackManager ConfigWrite Configurator Table List
open ResourceUpdateTask (not_isGood isGood_iff)

namespace ResourceUpdateTask

def withSideFiles (files : FileTree) (task : ResourceUpdateTask) : FileTree :=
  task.sideFiles.foldl (fun files f => files.insert f.1 f.2) files

/-- What an update with an error leaves: the side files, and a reload if it restored the file. -/
def rejected (host : Host) (cm : ConfigRollbackManager) (task : ResourceUpdateTask) (tests : Nat) :
    ConfigRollbackManager :=
  if task.content = none then cm.update (task.withSideFiles cm.files) tests
  else (cm.update (task.withSideFiles cm.files) tests).restored host task.path tests

/-- The folders of side files are not those of the tested ones. -/
theorem sideFile_ne {task : ResourceUpdateTask} {f : String × String} (hf : f ∈ task.sideFiles)
    {p : String} (hp : p.toList[11]? = some 'c' ∨ p.toList[11]? = some 's') : f.1 ≠ p := by
  have hne : ∀ {c}, f.1.toList[11]? = some c → c ≠ 'c' → c ≠ 's' → f.1 ≠ p := by
    intro c hletter hc hs
    rcases hp with hp | hp
    · exact ne_of_letter hc hletter hp
    · exact ne_of_letter hs hletter hp
  have hprotect : ∀ files : List ProtectFile,
      f ∈ files.map (fun f => (f.path, f.content)) → f.1 ≠ p := by
    intro files hin
    obtain ⟨g, -, rfl⟩ := mem_map.mp hin
    rcases letter_protect g with h | h
    · exact hne h (by decide) (by decide)
    · exact hne h (by decide) (by decide)
  cases task with
  | ingress u | mergeableIngress u => exact hprotect u.protectFiles hf
  | transportServer => cases hf
  | virtualServer u =>
    rcases mem_append.mp hf with hin | hin
    · exact hprotect u.protectFiles hin
    · simp only [Option.mem_toList, Option.map_eq_some_iff] at hin
      obtain ⟨content, -, rfl⟩ := hin
      exact hne (letter_oidcConf _) (by decide) (by decide)

theorem letter_path (task : ResourceUpdateTask) :
    task.path.toList[11]? = some 'c' ∨ task.path.toList[11]? = some 's' := by
  cases task with
  | ingress | mergeableIngress | virtualServer => exact .inl (letter_conf _)
  | transportServer => exact .inr (letters_transportServer _).1

variable (task : ResourceUpdateTask) (files : FileTree)

theorem get_withSideFiles {p : String}
    (hp : p.toList[11]? = some 'c' ∨ p.toList[11]? = some 's') :
    (task.withSideFiles files)[p]? = files[p]? := by
  refine get_foldl_write_of_notMem Prod.snd files fun hin => ?_
  obtain ⟨f, hf, hfp⟩ := mem_map.mp hin
  exact sideFile_ne hf hp hfp

theorem mem_withSideFiles : task.path ∈ task.withSideFiles files ↔ task.path ∈ files := by
  simp only [FileTree.mem_iff, task.get_withSideFiles files task.letter_path]

end ResourceUpdateTask

open ResourceUpdateTask (rejected ingress virtualServer transportServer)

/-- How the update of a resource ends. -/
structure IsApplied (host : Host) (valid : String → String → Prop) (cnf : Configurator)
    (task : ResourceUpdateTask) (result : Outcome × Configurator) : Prop where
  serving : result.2.manager.IsServing host
  reloads : result.2.isReloadsEnabled = cnf.isReloadsEnabled
  good : task.IsGood valid → ∃ changed files tests, result.1 = .returned changed ∧
    result.2.manager = cnf.manager.update files tests ∧ files[task.path]? = task.content
  bad : ¬ task.IsGood valid → (∃ err, result.1 = .failed err) ∧ result.2.ingresses = cnf.ingresses ∧
    ∃ tests, result.2.manager = task.rejected host cnf.manager tests
  recorded : task.IsGood valid → ∀ name, task.ingressName = some name →
    result.2.ingresses[name]? = some task.isForEmptyHost
  others : ∀ name, task.ingressName ≠ some name → result.2.ingresses[name]? = cnf.ingresses[name]?
  defaultServer : task.isForEmptyHost = false → ∀ name, cnf.ingresses[name]? = some true →
    task.ingressName ≠ some name → result.2.manager.files[defaultServerConfFilename]? =
      cnf.manager.files[defaultServerConfFilename]?

theorem version_ne_default : configVersionFilename ≠ defaultServerConfFilename := by decide

theorem letter_default : defaultServerConfFilename.toList[11]? = some 'c' := by decide

/-! ## One write of a tree that passes -/

/-- Files can be written, the test looks at each of them, and that of the version passes. -/
structure Reliable (host : Host) (valid : String → String → Prop) : Prop where
  writable : host.IsWritable
  tests : TestsEach host valid
  version : ∀ n, valid configVersionFilename (generateVersionConfig n)

section

variable {host : Host} {valid : String → String → Prop} (hrel : Reliable host valid)
  {cm : ConfigRollbackManager} {cnf : Configurator} {content : String}

include hrel

theorem passes_insert {files : FileTree} (hpasses : host.passes files = true) {p : String}
    (hvalid : valid p content) : host.passes (files.insert p content) = true := by
  rw [hrel.tests] at hpasses ⊢
  intro q c hq
  rw [get_insert] at hq
  split at hq
  · rename_i heq
    cases hq
    exact heq ▸ hvalid
  · exact hpasses q c hq

theorem passes_erase {files : FileTree} (hpasses : host.passes files = true) (p : String) :
    host.passes (files.erase p) = true := by
  rw [hrel.tests] at hpasses ⊢
  intro q c hq
  rw [get_erase] at hq
  split at hq
  · cases hq
  · exact hpasses q c hq

theorem serving_insert (h : cm.IsServing host) {p : String} (hvalid : valid p content)
    (tests : Nat) : (cm.update (cm.files.insert p content) tests).IsServing host :=
  h.update (passes_insert hrel h.passes hvalid) (fun _ => mem_insert_of_mem _ _) tests

theorem serving_foldl (h : cm.IsServing host) {l : List (String × String)}
    (hvalid : ∀ f ∈ l, valid f.1 f.2) (tests : Nat) :
    (cm.update (l.foldl (fun files f => files.insert f.1 f.2) cm.files) tests).IsServing host := by
  induction l generalizing cm with
  | nil => exact h.update h.passes (fun _ hpath => hpath) tests
  | cons f l ih =>
    have hfirst := serving_insert hrel h (hvalid f mem_cons_self) cm.tests
    exact ih hfirst fun f hf => hvalid f (mem_cons_of_mem _ hf)

theorem serving_reload (h : cm.IsServing host) : (cm.reload host).2.IsServing host :=
  h.reload hrel.writable (passes_insert hrel h.passes (hrel.version _))

theorem serving_write_good (h : cm.IsServing host) (w : ConfigWrite)
    (hvalid : valid w.path w.content) :
    ∃ changed tests, w.run host cm =
        (.returned changed, cm.update (cm.files.insert w.path w.content) tests) := by
  have hcase := h.writeCase hrel.writable w
  have hpasses := passes_insert hrel h.passes hvalid
  generalize w.run host cm = result at hcase
  cases hcase with
  | same tests hsame =>
    exact ⟨false, tests, by rw [FileTree.insert_of_get hsame]⟩
  | written tests _ _ => exact ⟨true, tests, rfl⟩
  | removed err tests _ hfails | rolledBack err old tests _ _ hfails =>
    rw [hpasses] at hfails
    cases hfails

theorem serving_write_bad (h : cm.IsServing host) (w : ConfigWrite)
    (hinvalid : ¬ valid w.path w.content) :
    ∃ err tests, w.run host cm = (.failed err, cm.restored host w.path tests) := by
  have hcase := h.writeCase hrel.writable w
  have hfails : host.passes (cm.files.insert w.path w.content) ≠ true := by
    rw [Ne, hrel.tests]
    exact fun hall => hinvalid (hall w.path w.content (by rw [get_insert, if_pos rfl]))
  unfold restored
  generalize w.run host cm = result at hcase
  cases hcase with
  | same tests hsame =>
    rw [FileTree.insert_of_get hsame] at hfails
    exact absurd h.passes hfails
  | written tests _ hpasses => exact absurd hpasses hfails
  | removed err tests hnone _ =>
    exact ⟨err, tests, by rw [if_neg]; simp [FileTree.mem_iff, hnone]⟩
  | rolledBack err old tests hold _ _ =>
    exact ⟨err, tests, by rw [if_pos (FileTree.mem_iff.mpr ⟨old, hold⟩)]⟩

/-! ## One step of the loop -/

variable {task : ResourceUpdateTask} {shared : SharedTemplates}

theorem serving_restored (h : cm.IsServing host) (path : String) (tests : Nat) :
    (cm.restored host path tests).IsServing host := by
  have hsame := h.update h.passes (fun _ hpath => hpath) tests
  unfold restored
  split
  · exact serving_reload hrel hsame
  · exact hsame

theorem serving_rejected (h : cnf.manager.IsServing host)
    (hside : ∀ f ∈ task.sideFiles, valid f.1 f.2) (tests : Nat) :
    (task.rejected host cnf.manager tests).IsServing host := by
  have hleft : (cnf.manager.update (task.withSideFiles cnf.manager.files) tests).IsServing host :=
    serving_foldl hrel h hside tests
  unfold rejected
  split
  · exact hleft
  · exact serving_restored hrel hleft task.path tests

omit hrel in
theorem isApplied_written (hgood : task.IsGood valid) (hname : task.ingressName = none)
    {cnf' : Configurator} {files : FileTree} {changed : Bool} {tests : Nat}
    (hmanager : cnf'.manager = cnf.manager.update files tests)
    (hserving : (cnf.manager.update files tests).IsServing host)
    (hkept : cnf'.ingresses = cnf.ingresses ∧ cnf'.isReloadsEnabled = cnf.isReloadsEnabled)
    (hfile : files[task.path]? = task.content)
    (hdefault : files[defaultServerConfFilename]? = cnf.manager.files[defaultServerConfFilename]?) :
    IsApplied host valid cnf task (.returned changed, cnf') where
  serving := hmanager ▸ hserving
  reloads := hkept.2
  good _ := ⟨changed, files, tests, rfl, hmanager, hfile⟩
  bad hbad := absurd hgood hbad
  recorded _ _ h := by simp [hname] at h
  others _ _ := by rw [hkept.1]
  defaultServer _ _ _ _ := by rw [hmanager]; exact hdefault

theorem isApplied_rejected (h : cnf.manager.IsServing host)
    (hside : ∀ f ∈ task.sideFiles, valid f.1 f.2) (hbad : ¬ task.IsGood valid)
    {result : Outcome × Configurator} {err : String} (hfailed : result.1 = .failed err)
    (tests : Nat)
    (hresult : result.2 = { cnf with manager := task.rejected host cnf.manager tests }) :
    IsApplied host valid cnf task result := by
  have hget := task.get_withSideFiles cnf.manager.files (.inl letter_default)
  have hreload : ((cnf.manager.update (task.withSideFiles cnf.manager.files)
      tests).reload host).2.files[defaultServerConfFilename]? = _ :=
    reload_changesOnly (P := (· ≠ defaultServerConfFilename)) version_ne_default
      defaultServerConfFilename fun hne => hne rfl
  obtain ⟨outcome, cnf'⟩ := result
  subst hresult
  exact {
    serving := serving_rejected hrel h hside tests
    reloads := rfl
    good := fun hgood => absurd hgood hbad
    bad := fun _ => ⟨⟨err, hfailed⟩, rfl, tests, rfl⟩
    recorded := fun hgood => absurd hgood hbad
    others := fun _ _ => rfl
    defaultServer := fun _ _ _ _ => by
      dsimp only [rejected, restored]
      split_ifs
      · exact hget
      · exact hreload.trans hget
      · exact hget }

theorem writeProtectFiles_eq (protectFiles : List ProtectFile) :
    cnf.writeProtectFiles host protectFiles = (.returned false, { cnf with
      manager := cnf.manager.update (withProtectFiles cnf.manager.files protectFiles)
        cnf.manager.tests }) := by
  rw [writeProtectFiles, createAppProtectResourceFiles_eq hrel.writable]
  rfl

theorem syncDefaultServerConfig_spec (h : cnf.manager.IsServing host)
    (hdefault : RendersDefault valid shared ∨ cnf.hasActiveEmptyHostIngress = true) :
    ∃ changed files tests, (cnf.manager.update files tests).IsServing host ∧
      cnf.syncDefaultServerConfig host shared =
        (.returned changed, { cnf with manager := cnf.manager.update files tests }) ∧
      (cnf.hasActiveEmptyHostIngress = true → files = cnf.manager.files) := by
  unfold syncDefaultServerConfig
  split
  · exact ⟨false, _, cnf.manager.tests, h, rfl, fun _ => rfl⟩
  rename_i hactive
  obtain ⟨content, hcontent, hvalid⟩ := hdefault.resolve_right hactive
  obtain ⟨changed, tests, hwrite⟩ := serving_write_good hrel h
    (.http defaultServerConfigName content) (by
      rw [path, getFilenameForConfig_defaultServer]
      exact hvalid)
  refine ⟨changed, _, tests, serving_insert hrel h hvalid tests, ?_, fun h => absurd h hactive⟩
  rw [hcontent, writeDefaultServer,
    show cnf.manager.createConfig host defaultServerConfigName content = _ from hwrite]
  simp only [ConfigWrite.path, ConfigWrite.content, getFilenameForConfig_defaultServer]
  rfl

omit hrel in
theorem hasActiveEmptyHostIngress_of_get {name : String} (h : cnf.ingresses[name]? = some true) :
    cnf.hasActiveEmptyHostIngress = true := by
  rw [hasActiveEmptyHostIngress, any_eq_true]
  exact ⟨name, mem_keys_iff.mpr ⟨true, h⟩, by simp [h]⟩

omit hrel in
theorem ingressPath_ne_default (m : ObjectMeta) : ingressPath m ≠ defaultServerConfFilename := by
  intro h
  have hmem : ingressPath m ∈ (Object.ingress m).files := mem_singleton.mpr rfl
  exact not_shared_of_mem_files hmem (.inr (.inl h))

theorem deleteStaleConfig_spec (h : cnf.manager.IsServing host) (m : ObjectMeta)
    (emptyHost : Bool) :
    ∃ files, (cnf.manager.update files cnf.manager.tests).IsServing host ∧
      cnf.deleteStaleConfig m emptyHost =
        { cnf with manager := cnf.manager.update files cnf.manager.tests } ∧
      (emptyHost = false → files = cnf.manager.files) ∧
      ∀ p, p ≠ ingressPath m → files[p]? = cnf.manager.files[p]? := by
  have hmain : mainConfFilename ≠ ingressPath m :=
    (ne_of_letter (show 'c' ≠ 'n' by decide) (letter_conf _) (by decide)).symm
  have herase : ∀ p, p ≠ ingressPath m →
      (cnf.manager.files.erase (ingressPath m))[p]? = cnf.manager.files[p]? := by
    intro p hp
    rw [get_erase, if_neg (Ne.symm hp)]
  unfold deleteStaleConfig
  split
  · rename_i hstale
    refine ⟨cnf.manager.files.erase (ingressPath m), ?_, ?_, ?_, herase⟩
    · exact {
        passes := passes_erase hrel h.passes _
        main := FileTree.mem_of_get_eq (herase _ hmain) h.main
        defaultServer :=
          FileTree.mem_of_get_eq (herase _ (ingressPath_ne_default m).symm) h.defaultServer
        configVersion := h.configVersion
        notPending := h.notPending
        notBatch := h.notBatch }
    · rw [deleteConfig_eq]
      rfl
    · intro hfalse
      rw [hfalse] at hstale
      exact absurd hstale.1 (by decide)
  · exact ⟨cnf.manager.files, h, rfl, fun _ => rfl, fun _ _ => rfl⟩

/-- A good Ingress has its file, and the file of another Ingress for the empty host stays. -/
theorem writeIngress_good (h : cnf.manager.IsServing host) (described : String) (m : ObjectMeta)
    (emptyHost : Bool) (hdefault : RendersDefault valid shared ∨
      (cnf.recordIngress m emptyHost).hasActiveEmptyHostIngress = true)
    (hvalid : valid (getFilenameForConfig (ingressConfigName m emptyHost)) content) :
    ∃ changed files tests, (cnf.manager.update files tests).IsServing host ∧
      cnf.writeIngress host shared described m emptyHost content = (.returned changed, { cnf with
          manager := cnf.manager.update files tests
          ingresses := cnf.ingresses.insert (objectMetaToFileName m).val emptyHost }) ∧
      files[getFilenameForConfig (ingressConfigName m emptyHost)]? = some content ∧
      (emptyHost = false → ∀ name, cnf.ingresses[name]? = some true →
        name ≠ (objectMetaToFileName m).val →
        files[defaultServerConfFilename]? = cnf.manager.files[defaultServerConfFilename]?) := by
  obtain ⟨changed, tests, hwrite⟩ := serving_write_good hrel h
    (.http (ingressConfigName m emptyHost) content) hvalid
  have hserving := serving_insert hrel h hvalid tests
  dsimp only [ConfigWrite.run, ConfigWrite.path, ConfigWrite.content] at hwrite
  -- the stale file of an Ingress that moves to the default server
  obtain ⟨files, hserving', hstale, hsame, hkept⟩ : ∃ files, _ ∧
      ({ cnf with manager := cnf.manager.update _ tests } : Configurator).deleteStaleConfig m
        emptyHost = _ ∧ _ ∧ _ := deleteStaleConfig_spec hrel hserving m emptyHost
  -- the default server, now that the Ingress is recorded
  obtain ⟨synced, files', tests', hserving'', hsync, hactive⟩ : ∃ synced files' tests', _ ∧
      (({ cnf with manager := cnf.manager.update files tests } : Configurator).recordIngress m
        emptyHost).syncDefaultServerConfig host shared = (.returned synced, _) ∧ _ :=
    syncDefaultServerConfig_spec hrel hserving' hdefault
  refine ⟨changed, files', tests', hserving'', ?_, ?_, ?_⟩
  · unfold writeIngress
    dsimp only
    rw [hwrite]
    dsimp only [calls, Prod.map, Outcome.context, andThen, id]
    rw [hstale]
    dsimp only [tests_update, update_update]
    rw [hsync]
    rfl
  · cases emptyHost with
    | true =>
      rw [hactive (hasActiveEmptyHostIngress_of_get
        (show _ = some true by rw [recordIngress, get_insert, if_pos rfl]))]
      dsimp only [recordIngress, files_update]
      rw [hkept _ (by rw [path_ingress]; exact (ingressPath_ne_default m).symm)]
      simp
    | false =>
      have hmem : ingressPath m ∈ (Object.ingress m).files := mem_singleton.mpr rfl
      have hframe : KeepsOutside IsShared _
          ((({ cnf with manager := cnf.manager.update files tests } : Configurator).recordIngress m
            false).syncDefaultServerConfig host shared).2 :=
        keepsOutside_syncDefaultServerConfig (.inl rfl) (.inr (.inl rfl))
      have hget := hframe (ingressPath m) (not_shared_of_mem_files hmem)
      rw [hsync] at hget
      refine hget.trans ?_
      dsimp only [recordIngress, files_update]
      rw [hsame rfl, files_update, path_ingress]
      simp
  · rintro rfl name hname hne
    have hrecorded : (({ cnf with manager := cnf.manager.update files tests } :
        Configurator).recordIngress m false).ingresses[name]? = some true := by
      rw [recordIngress, get_insert, if_neg (Ne.symm hne)]
      exact hname
    rw [hactive (hasActiveEmptyHostIngress_of_get hrecorded)]
    dsimp only [recordIngress, files_update]
    rw [hsame rfl, files_update, path_ingress, get_insert, if_neg]
    exact ingressPath_ne_default m

omit hrel in
/-- An Ingress that serves the empty host does so after the update of another one. -/
theorem active_recordIngress {name : String} (h : cnf.ingresses[name]? = some true) (m : ObjectMeta)
    {emptyHost : Bool} (hname : (objectMetaToFileName m).val = name → emptyHost = true) :
    (cnf.recordIngress m emptyHost).hasActiveEmptyHostIngress = true := by
  have hget : (cnf.recordIngress m emptyHost).ingresses[name]? = some true := by
    rw [recordIngress, get_insert]
    split
    · rename_i heq
      rw [hname heq]
    · exact h
  exact hasActiveEmptyHostIngress_of_get hget

theorem renderedIngress_applied (h : cnf.manager.IsServing host) (described : String)
    (u : IngressUpdate) (hdefault : RendersDefault valid shared ∨
      (cnf.recordIngress u.objectMeta u.emptyHost).hasActiveEmptyHostIngress = true)
    (hside : ∀ f ∈ (ingress u).sideFiles, valid f.1 f.2) :
    IsApplied host valid cnf (.ingress u) (cnf.renderedIngress host shared described u.objectMeta
      u.emptyHost u.protectFiles u.content) := by
  have hfiles : (ingress u).withSideFiles cnf.manager.files =
      withProtectFiles cnf.manager.files u.protectFiles := foldl_map
  have hserving := serving_foldl hrel h hside cnf.manager.tests
  have hkept : (cnf.manager.update (withProtectFiles cnf.manager.files u.protectFiles)
      cnf.manager.tests).files[defaultServerConfFilename]? = _ :=
    hfiles ▸ (ingress u).get_withSideFiles cnf.manager.files (.inl letter_default)
  rw [show foldl _ cnf.manager.files _ = _ from hfiles] at hserving
  unfold renderedIngress
  rw [writeProtectFiles_eq hrel]
  generalize hcm : cnf.manager.update (withProtectFiles cnf.manager.files u.protectFiles)
    cnf.manager.tests = cm at hserving hkept
  dsimp only [andThen]
  cases hcontent : u.content with
  | error err =>
    have hnone : (ingress u).content = none := congrArg Except.toOption hcontent
    refine isApplied_rejected hrel h hside (not_isGood hnone) rfl cnf.manager.tests ?_
    rw [rejected, if_pos hnone, hfiles, hcm]
  | ok content =>
    have hsome : (ingress u).content = some content :=
      congrArg Except.toOption hcontent
    by_cases hvalid : valid (ingress u).path content
    · obtain ⟨changed, files, tests, hserving', hwrite, hfile, hdefault'⟩ :
          ∃ changed files tests, _ ∧ ({ cnf with manager := cm } : Configurator).writeIngress host
            shared described u.objectMeta u.emptyHost content = (.returned changed, _) ∧ _ ∧ _ :=
        writeIngress_good hrel hserving described u.objectMeta u.emptyHost hdefault hvalid
      dsimp only
      rw [hwrite]
      exact {
        serving := hserving'
        reloads := rfl
        good := fun _ => ⟨changed, files, tests, rfl, by rw [← hcm]; rfl, hfile.trans hsome.symm⟩
        bad := fun hbad => absurd ⟨content, hsome, hvalid⟩ hbad
        recorded := by
          intro _ name hname
          cases hname
          exact (get_insert ..).trans (if_pos rfl)
        others := by
          intro name hname
          exact (get_insert ..).trans (if_neg fun heq => hname (congrArg some heq))
        defaultServer := by
          intro hempty name hactive hname
          exact (hdefault' hempty name hactive fun heq =>
            hname (congrArg some heq.symm)).trans hkept }
    · obtain ⟨err, tests, hwrite⟩ := serving_write_bad hrel hserving
        (.http (ingressConfigName u.objectMeta u.emptyHost) content) hvalid
      unfold writeIngress
      dsimp only
      rw [show createConfig host cm _ content = _ from hwrite]
      refine isApplied_rejected hrel h hside (mt (isGood_iff hsome).mp hvalid) rfl tests ?_
      rw [rejected, if_neg (by simp [hsome]), hfiles, ← hcm]
      rfl

theorem addOrUpdateVirtualServer_applied (h : cnf.manager.IsServing host)
    (u : VirtualServerUpdate)
    (hside : ∀ f ∈ (virtualServer u).sideFiles, valid f.1 f.2) :
    IsApplied host valid cnf (.virtualServer u) (cnf.addOrUpdateVirtualServer host u.objectMeta
      u.hasOIDC u.protectFiles u.rendered) := by
  have hfiles : (virtualServer u).withSideFiles cnf.manager.files =
      withOIDC (withProtectFiles cnf.manager.files u.protectFiles) u.objectMeta
        (u.rendered.toOption.bind RenderedVirtualServer.oidc) := by
    rw [ResourceUpdateTask.withSideFiles, ResourceUpdateTask.sideFiles, foldl_append, foldl_map]
    cases u.rendered.toOption.bind RenderedVirtualServer.oidc <;> rfl
  have hserving := serving_foldl hrel h hside cnf.manager.tests
  rw [show foldl _ cnf.manager.files _ = _ from hfiles] at hserving
  unfold Configurator.addOrUpdateVirtualServer
  rw [writeProtectFiles_eq hrel]
  dsimp only [andThen]
  cases hrendered : u.rendered with
  | error err =>
    have hnone : (virtualServer u).content = none := by
      simp [ResourceUpdateTask.content, hrendered, Except.toOption]
    refine isApplied_rejected hrel h hside (not_isGood hnone) rfl cnf.manager.tests ?_
    rw [rejected, if_pos hnone, hfiles, hrendered]
    rfl
  | ok rendered =>
    have hsome : (virtualServer u).content = some rendered.server := by
      rw [ResourceUpdateTask.content, hrendered]
      rfl
    obtain ⟨oidcChanged, hoidc⟩ : ∃ changed, writeOIDC host (cnf.manager.update
      (withProtectFiles cnf.manager.files u.protectFiles) cnf.manager.tests) u.objectMeta
        rendered.oidc = (.returned changed, _) :=
      writeOIDC_eq hrel.writable u.objectMeta rendered.oidc
    rw [hrendered] at hserving hfiles
    dsimp only [Except.toOption, Option.bind_some, update_update, files_update, tests_update]
      at hserving hfiles hoidc
    generalize hcm : cnf.manager.update (withOIDC (withProtectFiles cnf.manager.files
      u.protectFiles) u.objectMeta rendered.oidc) cnf.manager.tests = cm at hserving hoidc
    unfold writeVirtualServer
    dsimp only
    rw [hoidc]
    by_cases hvalid : valid (serverPath u.objectMeta) rendered.server
    · obtain ⟨changed, tests, hwrite⟩ := serving_write_good hrel hserving
        (.http (getFileNameForVirtualServer u.objectMeta) rendered.server) hvalid
      dsimp only
      rw [show cm.createConfig host _ rendered.server = _ from hwrite]
      subst hcm
      refine isApplied_written ⟨_, hsome, hvalid⟩ rfl rfl
        (serving_insert hrel hserving hvalid tests) ⟨rfl, rfl⟩ ?_ ?_
      · exact ((get_insert ..).trans (if_pos rfl)).trans hsome.symm
      · exact ((get_insert ..).trans (if_neg (serverPath_ne_default _))).trans
          (hfiles ▸ ResourceUpdateTask.get_withSideFiles _ _ (.inl letter_default))
    · obtain ⟨err, tests, hwrite⟩ := serving_write_bad hrel hserving
        (.http (getFileNameForVirtualServer u.objectMeta) rendered.server) hvalid
      dsimp only
      rw [show cm.createConfig host _ rendered.server = _ from hwrite]
      refine isApplied_rejected hrel h hside (mt (isGood_iff hsome).mp hvalid) rfl tests ?_
      rw [rejected, if_neg (by simp [hsome]), hfiles, ← hcm]
      rfl

theorem addOrUpdateTransportServer_applied (h : cnf.manager.IsServing host)
    (u : TransportServerUpdate) (hhosts : ∀ pair, u.passthrough = some pair →
      ∀ pairs : GoMap TlsPassthroughPair, ∃ content, shared.tlsPassthroughHosts
        (pairs.insert (getResourceKey u.objectMeta) pair) = .ok content ∧
          valid tlsPassthroughHostsFilename content) :
    IsApplied host valid cnf (.transportServer u) (cnf.addOrUpdateTransportServer host shared
      u.objectMeta u.content u.passthrough) := by
  have hside : ∀ f ∈ (transportServer u).sideFiles, valid f.1 f.2 :=
    fun f hf => nomatch hf
  unfold addOrUpdateTransportServer
  cases hcontent : u.content with
  | error err =>
    have hnone : (transportServer u).content = none :=
      congrArg Except.toOption hcontent
    refine isApplied_rejected hrel h hside (not_isGood hnone) rfl cnf.manager.tests ?_
    rw [rejected, if_pos hnone]
    rfl
  | ok content =>
    dsimp only
    have hsome : (transportServer u).content = some content :=
      congrArg Except.toOption hcontent
    by_cases hvalid : valid (transportServerPath u.objectMeta) content
    · obtain ⟨changed, tests, hwrite⟩ := serving_write_good hrel h
        (.stream (getFileNameForTransportServer u.objectMeta) content) hvalid
      have hserving := serving_insert hrel h hvalid tests
      have hgood : (transportServer u).IsGood valid := ⟨_, hsome, hvalid⟩
      have hdefault : (cnf.manager.files.insert (transportServerPath u.objectMeta)
          content)[defaultServerConfFilename]? = cnf.manager.files[defaultServerConfFilename]? :=
        (get_insert ..).trans (if_neg (ne_of_letter (show 's' ≠ 'c' by decide)
          (letters_transportServer _).1 letter_default))
      dsimp only [ConfigWrite.path, ConfigWrite.content, ConfigWrite.run] at hwrite
      rw [hwrite]
      dsimp only [calls, Prod.map, Outcome.context, andThen, id, writePassthrough]
      cases hpassthrough : u.passthrough with
      | none =>
        exact isApplied_written hgood rfl rfl hserving ⟨rfl, rfl⟩
          (((get_insert ..).trans (if_pos rfl)).trans hsome.symm) hdefault
      | some pair =>
        obtain ⟨hosts, hrendered, hhostsValid⟩ := hhosts pair hpassthrough cnf.tlsPassthroughPairs
        dsimp only [updateTLSPassthroughHostsConfig, recordPassthrough]
        rw [hrendered]
        dsimp only [calls, createTLSPassthroughHostsConfig, createLocalConfig]
        rw [createFileAndWrite_of_writable hrel.writable]
        refine isApplied_written hgood rfl rfl (serving_insert hrel hserving hhostsValid tests)
          ⟨rfl, rfl⟩ ?_ ?_
        · have hne : tlsPassthroughHostsFilename ≠ transportServerPath u.objectMeta :=
            (ne_of_letter (show 's' ≠ 't' by decide) (letters_transportServer _).1 (by decide)).symm
          exact (((get_insert ..).trans (if_neg hne)).trans
            ((get_insert ..).trans (if_pos rfl))).trans hsome.symm
        · exact ((get_insert ..).trans (if_neg (by decide))).trans hdefault
    · obtain ⟨err, tests, hwrite⟩ := serving_write_bad hrel h
        (.stream (getFileNameForTransportServer u.objectMeta) content) hvalid
      dsimp only [run] at hwrite
      rw [hwrite]
      refine isApplied_rejected hrel h hside (mt (isGood_iff hsome).mp hvalid) rfl tests ?_
      rw [rejected, if_neg (by simp [hsome])]
      rfl

variable {tasks : List ResourceUpdateTask}

theorem update_applied (hwrites : WritesValid valid shared tasks) (htask : task ∈ tasks)
    (hdefault : KeepsDefault valid shared tasks cnf) (h : cnf.manager.IsServing host) :
    IsApplied host valid cnf task (task.update host shared cnf) := by
  have hside := hwrites.sideFiles task htask
  cases task with
  | ingress u =>
    exact renderedIngress_applied hrel h _ u (hdefault.imp_right fun ⟨name, hname, hall⟩ =>
      active_recordIngress hname _ fun heq => hall _ htask (congrArg some heq)) hside
  | mergeableIngress u =>
    have happlied := renderedIngress_applied hrel h "mergeable ingress" u
      (hdefault.imp_right fun ⟨name, hname, hall⟩ =>
        active_recordIngress hname _ fun heq => hall _ htask (congrArg some heq)) hside
    -- the task of a master has the same file and name
    exact { happlied with }
  | virtualServer u => exact addOrUpdateVirtualServer_applied hrel h u hside
  | transportServer u => exact addOrUpdateTransportServer_applied hrel h u (hwrites.hosts u htask)

omit hrel

theorem ServesEmptyHost.step {result : Outcome × Configurator} (h : ServesEmptyHost tasks cnf)
    (happlied : IsApplied host valid cnf task result) (htask : task ∈ tasks) :
    ServesEmptyHost tasks result.2 := by
  obtain ⟨name, hname, hall⟩ := h
  refine ⟨name, ?_, hall⟩
  by_cases hown : task.ingressName = some name
  · by_cases hgood : task.IsGood valid
    · rw [happlied.recorded hgood name hown, hall task htask hown]
    · rw [(happlied.bad hgood).2.1]
      exact hname
  · rw [happlied.others name hown]
    exact hname

theorem update_keeps (shared : SharedTemplates) (task : ResourceUpdateTask) {p : String}
    (hne : p ≠ task.ownPath) (hshared : ¬ IsShared p) (hoidc : ∀ m, p ≠ oidcPath m) :
    (task.update host shared cnf).2.manager.files[p]? = cnf.manager.files[p]? := by
  have hframe : KeepsOutside (fun q => q = task.ownPath ∨ IsShared q ∨ ∃ m, q = oidcPath m) cnf
      (task.update host shared cnf).2 := by
    have hversion : IsShared configVersionFilename := .inl rfl
    have hdefault : IsShared defaultServerConfFilename := .inr (.inl rfl)
    have hprotect : ∀ f : ProtectFile, IsShared f.path := fun f =>
      .inr (.inr (.inr ⟨f, rfl⟩))
    cases task with
    | ingress | mergeableIngress =>
      exact keepsOutside_renderedIngress (.inr (.inl hversion))
        (.inr (.inl hdefault)) (fun f => .inr (.inl (hprotect f))) (.inl rfl) _ _ _ _
    | virtualServer u =>
      exact keepsOutside_addOrUpdateVirtualServer (.inr (.inl hversion))
        (fun f => .inr (.inl (hprotect f))) (.inl rfl) (.inr (.inr ⟨_, rfl⟩)) _ _ _
    | transportServer u =>
      exact keepsOutside_addOrUpdateTransportServer (.inr (.inl hversion))
        (.inr (.inl (.inr (.inr (.inl rfl))))) (.inl rfl) _ _
  refine hframe p ?_
  rintro (heq | hin | ⟨m, heq⟩)
  · exact hne heq
  · exact hshared hin
  · exact hoidc m heq

variable {other : ResourceUpdateTask}

/-- The update of another resource does not change the file. -/
theorem IsApplied.keeps (h : IsApplied host valid cnf task (task.update host shared cnf))
    (hdistinct : other.ownPath ≠ task.ownPath ∧
      ¬ (other.isForEmptyHost = true ∧ task.isForEmptyHost = true))
    (hactive : other.isForEmptyHost = true →
      ∃ name, cnf.ingresses[name]? = some true ∧ task.ingressName ≠ some name) :
    (task.update host shared cnf).2.manager.files[other.path]? =
      cnf.manager.files[other.path]? := by
  rw [other.path_eq]
  cases hhost : other.isForEmptyHost with
  | true =>
    obtain ⟨name, hname, hother⟩ := hactive hhost
    have htask : task.isForEmptyHost = false := by
      rw [← Bool.not_eq_true]
      exact fun htask => hdistinct.2 ⟨hhost, htask⟩
    exact h.defaultServer htask name hname hother
  | false =>
    obtain ⟨hshared, hoidc⟩ := other.ownPath_free
    exact update_keeps shared task hdistinct.1 hshared hoidc

/-- Good resources have their files, and those for the empty host are recorded. -/
def Holds (valid : String → String → Prop) (done : List ResourceUpdateTask) (cnf : Configurator) :
    Prop :=
  ∀ task ∈ done, task.IsGood valid → cnf.manager.files[task.path]? = task.content ∧
    (task.isForEmptyHost = true → ∀ name, task.ingressName = some name →
      cnf.ingresses[name]? = some true)

variable {done rest : List ResourceUpdateTask}

theorem Holds.step (h : Holds valid done cnf)
    (happlied : IsApplied host valid cnf task (task.update host shared cnf))
    (hdistinct : ∀ other ∈ done, other.ownPath ≠ task.ownPath ∧
      ¬ (other.isForEmptyHost = true ∧ task.isForEmptyHost = true)) :
    Holds valid (done ++ [task]) (task.update host shared cnf).2 := by
  intro other hother hgood
  rcases mem_append.mp hother with hdone | hlast
  · obtain ⟨hfile, hrecorded⟩ := h other hdone hgood
    have hname : ∀ name, other.ingressName = some name → task.ingressName ≠ some name :=
      fun name hname hsame => (hdistinct other hdone).1
        (ResourceUpdateTask.ownPath_of_ingressName hname hsame)
    refine ⟨?_, fun hhost name hother => ?_⟩
    · rw [← hfile]
      refine happlied.keeps (hdistinct other hdone) fun hhost => ?_
      obtain ⟨name, hother⟩ := ResourceUpdateTask.exists_ingressName hhost
      exact ⟨name, hrecorded hhost name hother, hname name hother⟩
    · rw [happlied.others name (hname name hother)]
      exact hrecorded hhost name hother
  · rw [mem_singleton.mp hlast] at hgood ⊢
    obtain ⟨changed, files, tests, -, hmanager, hfile⟩ := happlied.good hgood
    refine ⟨hmanager ▸ hfile, fun hhost name hname => ?_⟩
    rw [happlied.recorded hgood name hname, hhost]

/-- No reload starts the new workers. -/
def NeverReloads (host : Host) : Prop := ∀ n files, host.reloadError n files ≠ none

include hrel in
theorem loaded_reload (hnever : NeverReloads host) : (cm.reload host).2.loaded = cm.loaded := by
  unfold ConfigRollbackManager.reload updateConfigVersionFile
  rw [createFileAndWrite_of_writable hrel.writable]
  dsimp only
  split
  · rename_i hnone _
    exact absurd hnone (hnever _ _)
  · rfl
  · rfl

include hrel in
theorem loaded_restored (hnever : NeverReloads host) (path : String) (tests : Nat) :
    (cm.restored host path tests).loaded = cm.loaded := by
  unfold restored
  split
  · exact loaded_reload hrel hnever
  · rfl

/-- The state of a loop over the resources. -/
structure InLoop (host : Host) (valid : String → String → Prop) (shared : SharedTemplates)
    (loaded : FileTree) (tasks done : List ResourceUpdateTask) (cnf : Configurator) : Prop where
  serving : cnf.manager.IsServing host
  reloads : cnf.isReloadsEnabled = true
  keepsDefault : KeepsDefault valid shared tasks cnf
  holds : Holds valid done cnf
  loaded : NeverReloads host → cnf.manager.loaded = loaded

variable {loaded : FileTree} (hwrites : WritesValid valid shared tasks)

include hrel hwrites

theorem InLoop.next (htasks : tasks = done ++ task :: rest)
    (h : InLoop host valid shared loaded tasks done cnf) :
    IsApplied host valid cnf task (task.update host shared cnf) ∧
      InLoop host valid shared loaded tasks (done ++ [task]) (task.update host shared cnf).2 := by
  have htask : task ∈ tasks := by simp [htasks]
  have hdistinct := hwrites.distinct
  have happlied := update_applied hrel hwrites htask h.keepsDefault h.serving
  rw [htasks] at hdistinct
  refine ⟨happlied, happlied.serving, happlied.reloads.trans h.reloads,
    h.keepsDefault.imp_right fun hserves => hserves.step happlied htask,
    h.holds.step happlied fun other hother =>
      (pairwise_append.mp hdistinct).2.2 other hother task mem_cons_self, fun hnever => ?_⟩
  rw [← h.loaded hnever]
  by_cases hgood : task.IsGood valid
  · obtain ⟨changed, files, tests, -, hmanager, -⟩ := happlied.good hgood
    rw [hmanager]
    rfl
  · obtain ⟨-, -, tests, hmanager⟩ := happlied.bad hgood
    rw [hmanager, rejected]
    split
    · rfl
    · exact loaded_restored hrel hnever _ _

/-- The state of the loop while there were no two failures in a row. -/
structure InPass (host : Host) (valid : String → String → Prop) (shared : SharedTemplates)
    (loaded : FileTree) (tasks done : List ResourceUpdateTask) (res : ResourceUpdateResult) : Prop
    extends InLoop host valid shared loaded tasks done res.cnf where
  running : res.sharedInputFailure = false
  failures : res.consecutiveFailures = 0 ∧ (∀ task ∈ done.getLast?, task.IsGood valid) ∨
    res.consecutiveFailures = 1 ∧ ∃ task ∈ done.getLast?, ¬ task.IsGood valid

/-- A second failure in a row ends the loop, and nothing else does. -/
theorem InPass.apply {res : ResourceUpdateResult} (htasks : tasks = done ++ task :: rest)
    (h : InPass host valid shared loaded tasks done res) :
    ∃ res', res.apply host shared task = some res' ∧
      InLoop host valid shared loaded tasks (done ++ [task]) res'.cnf ∧
      (((∃ last ∈ done.getLast?, ¬ last.IsGood valid) ∧ ¬ task.IsGood valid) ∧
          res'.sharedInputFailure = true ∨
        ¬ ((∃ last ∈ done.getLast?, ¬ last.IsGood valid) ∧ ¬ task.IsGood valid) ∧
          InPass host valid shared loaded tasks (done ++ [task]) res') := by
  obtain ⟨happlied, hnext⟩ := h.toInLoop.next hrel hwrites htasks
  unfold ResourceUpdateResult.apply
  generalize task.update host shared res.cnf = result at happlied hnext
  obtain ⟨outcome, cnf'⟩ := result
  by_cases hgood : task.IsGood valid
  · obtain ⟨changed, -, -, rfl, -⟩ := happlied.good hgood
    exact ⟨_, rfl, hnext, .inr ⟨fun hbads => hbads.2 hgood, { hnext with
      running := h.running
      failures := .inl ⟨rfl, by simpa using hgood⟩ }⟩⟩
  · obtain ⟨⟨err, rfl⟩, -⟩ := happlied.bad hgood
    refine ⟨_, rfl, hnext, ?_⟩
    rcases h.failures with ⟨hzero, hlast⟩ | ⟨hone, hlast⟩
    · refine .inr ⟨fun ⟨⟨last, hin, hbad⟩, _⟩ => hbad (hlast last hin), { hnext with
        running := by simp [ResourceUpdateResult.fail, hzero, sharedInputFailureThreshold]
        failures := .inr ⟨by simp [ResourceUpdateResult.fail, hzero], by simpa using hgood⟩ }⟩
    · exact .inl ⟨⟨hlast, hgood⟩, by
        simp [ResourceUpdateResult.fail, hone, sharedInputFailureThreshold]⟩

omit hrel hwrites in
/-- The first two bad resources in a row. -/
theorem exists_twoBad (h : ¬ NoTwoBad valid tasks) : ∃ before bad bad' rest,
    tasks = before ++ bad :: bad' :: rest ∧ NoTwoBad valid (before ++ [bad]) ∧
      ¬ bad.IsGood valid ∧ ¬ bad'.IsGood valid := by
  induction tasks using reverseRecOn with
  | nil => exact absurd isChain_nil h
  | append_singleton init task ih =>
    by_cases hinit : NoTwoBad valid init
    · rw [NoTwoBad, isChain_append] at h
      simp only [isChain_singleton, true_and, not_and, head?_cons] at h
      have hpair := h hinit
      simp only [not_forall, not_or] at hpair
      obtain ⟨bad, hbad, bad', hbad', hbads⟩ := hpair
      cases hbad'
      obtain ⟨before, rfl⟩ := getLast?_eq_some_iff.mp hbad
      exact ⟨before, bad, task, [], by simp, hinit, hbads⟩
    · obtain ⟨before, bad, bad', rest, rfl, hrest⟩ := ih hinit
      exact ⟨before, bad, bad', rest ++ [task], by simp, hrest⟩

variable {res : ResourceUpdateResult} {more : List ResourceUpdateTask}

theorem InPass.run (htasks : tasks = done ++ (rest ++ more))
    (hchain : NoTwoBad valid (done ++ rest)) (h : InPass host valid shared loaded tasks done res) :
    ∃ res', applyResourceUpdates host shared res (rest ++ more) =
        applyResourceUpdates host shared res' more ∧
      InPass host valid shared loaded tasks (done ++ rest) res' := by
  induction rest generalizing done res with
  | nil => exact ⟨res, rfl, by rwa [append_nil]⟩
  | cons task rest ih =>
    obtain ⟨res', happly, -, hcase⟩ := h.apply hrel hwrites htasks
    have hnext : InPass host valid shared loaded tasks (done ++ [task]) res' := by
      refine (hcase.resolve_left ?_).2
      rintro ⟨⟨⟨last, hlast, hbad⟩, hbad'⟩, -⟩
      obtain ⟨init, rfl⟩ := getLast?_eq_some_iff.mp hlast
      rw [append_assoc] at hchain
      exact (isChain_append_cons_cons.mp hchain).2.1.elim hbad hbad'
    obtain ⟨res'', hrun, hpass⟩ := ih (by rw [htasks, append_assoc]; rfl)
      (by rwa [append_assoc]) hnext
    refine ⟨res'', ?_, by rwa [append_assoc] at hpass⟩
    rw [cons_append, applyResourceUpdates, if_neg (by simp [h.running]), happly]
    exact hrun

theorem InPass.stops (hchain : ¬ NoTwoBad valid tasks)
    (h : InPass host valid shared loaded tasks [] res) :
    ∃ res' done, applyResourceUpdates host shared res tasks = some res' ∧
      res'.sharedInputFailure = true ∧ InLoop host valid shared loaded tasks done res'.cnf := by
  obtain ⟨before, bad, bad', rest, htasks, hchain, hbad, hbad'⟩ := exists_twoBad hchain
  have hsplit : tasks = [] ++ ((before ++ [bad]) ++ bad' :: rest) := by simp [htasks]
  obtain ⟨res', hrun, hpass⟩ := h.run hrel hwrites hsplit hchain
  obtain ⟨res'', happly, hloop, hcase⟩ := hpass.apply hrel hwrites hsplit
  have hstopped : res''.sharedInputFailure = true :=
    (hcase.resolve_right fun hpass' => hpass'.1 ⟨⟨bad, by simp, hbad⟩, hbad'⟩).2
  refine ⟨res'', _, ?_, hstopped, hloop⟩
  rw [nil_append] at hsplit
  rw [hsplit, hrun, applyResourceUpdates, if_neg (by simp [hpass.running]), happly]
  cases rest with
  | nil => rfl
  | cons => exact if_pos hstopped

end

/-! ## The whole update -/

section

variable {host : Host} {valid : String → String → Prop} (hrel : Reliable host valid)
  {cnf : Configurator}
include hrel

section

variable (h : cnf.manager.IsServing host)
include h

theorem createDHParam_spec {dhParam : Option String}
    (hvalid : ∀ content, dhParam = some content → valid dhparamFilename content) :
    ∃ changed files, (cnf.manager.update files cnf.manager.tests).IsServing host ∧
      cnf.createDHParam host dhParam =
        (.returned changed,
          { cnf with manager := cnf.manager.update files cnf.manager.tests }) := by
  unfold createDHParam
  cases dhParam with
  | none => exact ⟨false, _, h, rfl⟩
  | some content =>
    refine ⟨true, _, serving_insert hrel h (hvalid content rfl) cnf.manager.tests, ?_⟩
    dsimp only
    rw [createFileAndWrite_of_writable hrel.writable]
    rfl

/-- A rejected main file is rolled back. -/
theorem updateMainConfig_spec (content : String) : ∃ cm, cm.IsServing host ∧
    (NeverReloads host → cm.loaded = cnf.manager.loaded) ∧
      cnf.updateMainConfig host (.ok content) = (.returned true, { cnf with manager := cm }) := by
  by_cases hvalid : valid (main content).path (main content).content
  · obtain ⟨changed, tests, hwrite⟩ := serving_write_good hrel h _ hvalid
    refine ⟨_, serving_insert hrel h hvalid tests, fun _ => rfl, ?_⟩
    rw [updateMainConfig, show createMainConfig host _ content = _ from hwrite]
    rfl
  · obtain ⟨err, tests, hwrite⟩ := serving_write_bad hrel h _ hvalid
    refine ⟨_, serving_restored hrel h (main content).path tests,
      fun hnever => loaded_restored hrel hnever _ _, ?_⟩
    rw [updateMainConfig, show createMainConfig host _ content = _ from hwrite]
    rfl

variable {input : SharedInput}
  (hdh : ∀ content, input.dhParam = some content → valid dhparamFilename content)
include hdh

theorem updateSharedFiles_returned (htemplate : input.templateError = none) {content : String}
    (hmain : input.mainConfig = .ok content)
    (hdefault : RendersDefault valid input.shared ∨ cnf.hasActiveEmptyHostIngress = true) :
    ∃ changed cm, cm.IsServing host ∧ (NeverReloads host → cm.loaded = cnf.manager.loaded) ∧
      cnf.updateSharedFiles host input = (.returned changed, { cnf with manager := cm }) := by
  obtain ⟨_, files, hserving, hdh⟩ := createDHParam_spec hrel h hdh
  obtain ⟨cm, hserving', hloaded, hmain'⟩ : ∃ cm, _ ∧ _ ∧
      ({ cnf with manager := cnf.manager.update files cnf.manager.tests } :
        Configurator).updateMainConfig host (.ok content) = _ :=
    updateMainConfig_spec hrel hserving content
  obtain ⟨changed, files', tests, hserving'', hsync, -⟩ : ∃ changed files' tests, _ ∧
      ({ cnf with manager := cm } : Configurator).syncDefaultServerConfig host input.shared =
        (.returned changed, _) ∧ _ := syncDefaultServerConfig_spec hrel hserving' hdefault
  refine ⟨changed, _, hserving'', hloaded, ?_⟩
  rw [updateSharedFiles, hdh]
  dsimp only [andThen]
  rw [htemplate, hmain]
  dsimp only
  rw [hmain']
  dsimp only
  rw [hsync]
  rfl

end

theorem reload_returned {cnf' : Configurator} {changed : Bool}
    (hreloads : cnf.isReloadsEnabled = true) (h : cnf.reload host = (.returned changed, cnf')) :
    cnf'.manager.loaded = cnf'.manager.files ∧
      ∀ p, p ≠ configVersionFilename → cnf'.manager.files[p]? = cnf.manager.files[p]? := by
  unfold Configurator.reload at h
  rw [if_pos hreloads, ConfigRollbackManager.reload, updateConfigVersionFile,
    createFileAndWrite_of_writable hrel.writable] at h
  dsimp only [calls] at h
  have hframe : ∀ p, p ≠ configVersionFilename →
      (cnf.manager.files.insert configVersionFilename
        (generateVersionConfig (cnf.manager.configVersion + 1)))[p]? = cnf.manager.files[p]? := by
    intro p hp
    rw [get_insert, if_neg (Ne.symm hp)]
  split at h
  · cases h
    exact ⟨rfl, hframe⟩
  · cases h
  · cases h

theorem Holds.isRegenerated {tasks : List ResourceUpdateTask} (h : Holds valid tasks cnf)
    {cnf' : Configurator} {changed : Bool}
    (hreloads : cnf.isReloadsEnabled = true)
    (hreload : cnf.reload host = (.returned changed, cnf')) :
    IsRegenerated valid tasks cnf' := by
  obtain ⟨hloaded, hkept⟩ := reload_returned hrel hreloads hreload
  refine ⟨fun task htask content hcontent hvalid => ?_, hloaded⟩
  have hpath : task.path ≠ configVersionFilename := by
    rw [task.path_eq]
    split
    · exact version_ne_default.symm
    · exact fun heq => task.ownPath_free.1 (.inl heq)
  rw [hkept _ hpath, ← hcontent]
  exact (h task htask ((isGood_iff hcontent).mpr hvalid)).1

variable {input : SharedInput} {resources : ExtendedResources} {tasks : List ResourceUpdateTask}
  (htasks : buildResourceUpdateTasks resources = tasks)
  (hserving : cnf.manager.IsServing host) (hreloads : cnf.isReloadsEnabled = true)
  (hdh : ∀ content, input.dhParam = some content → valid dhparamFilename content)
  (htemplate : input.templateError = none) {content : String}
  (hmain : input.mainConfig = .ok content) (hdefault : KeepsDefault valid input.shared tasks cnf)
include htasks hserving hreloads hdh htemplate hmain hdefault

theorem updateConfig_starts : ∃ res,
    InPass host valid input.shared cnf.manager.loaded tasks [] res ∧
      cnf.updateConfig host input resources =
        (applyResourceUpdates host input.shared res tasks).bind (finishUpdate host) := by
  obtain ⟨changed, cm, hserving', hloaded, hshared⟩ := updateSharedFiles_returned hrel hserving hdh
    htemplate hmain (hdefault.imp_right fun ⟨_, hname, _⟩ => hasActiveEmptyHostIngress_of_get hname)
  refine ⟨{ cnf := { cnf with manager := cm } }, ?_, by rw [updateConfig, hshared, htasks]⟩
  exact {
    serving := hserving'
    reloads := hreloads
    keepsDefault := hdefault
    holds := fun _ htask => (nomatch htask)
    loaded := hloaded
    running := rfl
    failures := .inl ⟨rfl, fun _ htask => (nomatch htask)⟩ }

variable (hwrites : WritesValid valid input.shared tasks)
include hwrites

/-- Without two bad resources in a row all are updated, and NGINX is reloaded. -/
theorem updateConfig_runs (hchain : NoTwoBad valid tasks) : ∃ res,
    InPass host valid input.shared cnf.manager.loaded tasks tasks res ∧
      cnf.updateConfig host input resources = finishUpdate host res := by
  obtain ⟨res, hstart, hupdate⟩ :=
    updateConfig_starts hrel htasks hserving hreloads hdh htemplate hmain hdefault
  obtain ⟨res', hrun, hpass⟩ := hstart.run hrel hwrites
    (show _ = [] ++ (tasks ++ []) by simp) hchain
  rw [append_nil] at hrun
  exact ⟨res', hpass, by rw [hupdate, hrun]; rfl⟩

/-- With two bad resources in a row the update ends without an error and without a reload. -/
theorem updateConfig_stops (hchain : ¬ NoTwoBad valid tasks) :
    ∃ (res : ResourceUpdateResult) (done : List ResourceUpdateTask),
      InLoop host valid input.shared cnf.manager.loaded tasks done res.cnf ∧
      cnf.updateConfig host input resources = some ⟨none, res.resourceErrors, res.cnf⟩ := by
  obtain ⟨res, hstart, hupdate⟩ :=
    updateConfig_starts hrel htasks hserving hreloads hdh htemplate hmain hdefault
  obtain ⟨res', done, hrun, hstopped, hloop⟩ := hstart.stops hrel hwrites hchain
  refine ⟨res', done, hloop, ?_⟩
  rw [hupdate, hrun, Option.bind_some, finishUpdate, if_pos hstopped]

end

namespace Configurator

/-- The configurator while NGINX runs with other files. -/
def loading (cnf : Configurator) (loaded : FileTree) : Configurator :=
  { cnf with manager.loaded := loaded }

end Configurator

/-- The test rejects one content. -/
def pickyHost : Host where
  passes files := files.keys.all fun p => files[p]? ≠ some "bad"

theorem testsEach_picky : TestsEach pickyHost fun _ content => content ≠ "bad" := by
  intro files
  simp only [pickyHost, all_eq_true, decide_eq_true_eq]
  constructor
  · rintro h p content hget rfl
    exact h p (mem_keys_iff.mpr ⟨_, hget⟩) hget
  · intro h p _ hget
    exact h p "bad" hget rfl

/-- TransportServers of the namespace `shop` with new contents. -/
def shopServers (contents : List (ResourceName × String)) : ExtendedResources where
  transportServerExes := contents.map fun (name, content) =>
    { objectMeta := { nspace := .of "shop", name := name }, content := .ok content }

def shopPath (name : ResourceName) : String :=
  transportServerPath { nspace := .of "shop", name := name }

def tea : ResourceName := .of "tea"
def coffee : ResourceName := .of "coffee"
def water : ResourceName := .of "water"
def milk : ResourceName := .of "milk"

/-- One TransportServer has a file. -/
def servedFiles : FileTree :=
  Std.ExtTreeMap.ofList [(mainConfFilename, "main"), (defaultServerConfFilename, "default"),
    (configVersionFilename, "version"), (shopPath milk, "milk")]

def servingConfigurator : Configurator :=
  { Configurator.withFile "" with
    manager :=
      { files := servedFiles
        loaded := servedFiles
        configVersion := 1
        initialDefaultServerPending := false } }

theorem isServing_servingConfigurator : servingConfigurator.manager.IsServing pickyHost where
  passes := by decide +kernel
  main := by decide +kernel
  defaultServer := by decide +kernel
  configVersion := by decide
  notPending := rfl
  notBatch := rfl

def changedInput : SharedInput where
  mainConfig := .ok "new main"
  shared := ⟨.ok "new default", fun _ => .ok "hosts"⟩

theorem generateVersionConfig_ne (n : Nat) : generateVersionConfig n ≠ "bad" := by
  have hletter : (generateVersionConfig n).toList[0]? = some 's' := by
    unfold generateVersionConfig
    exact letter_of_append (letter_of_append (letter_of_append (letter_of_append
      (letter_of_append (by decide) _) _) _) _) _
  exact ne_of_letter (show 's' ≠ 'b' by decide) hletter (by decide)

/-- TransportServers have no side files. -/
theorem writesValid_shop (contents : List (ResourceName × String))
    (hdistinct : (buildResourceUpdateTasks (shopServers contents)).Pairwise fun task task' =>
      task.ownPath ≠ task'.ownPath ∧
        ¬ (task.isForEmptyHost = true ∧ task'.isForEmptyHost = true)) :
    WritesValid (fun _ content => content ≠ "bad") changedInput.shared
      (buildResourceUpdateTasks (shopServers contents)) where
  version := generateVersionConfig_ne
  hosts := fun _ _ _ _ _ => ⟨"hosts", rfl, by decide⟩
  sideFiles := by
    intro task htask f hf
    obtain ⟨u, -, rfl⟩ := mem_map.mp htask
    cases hf
  distinct := hdistinct

theorem keepsDefault_shop (tasks : List ResourceUpdateTask) :
    KeepsDefault (fun _ content => content ≠ "bad") changedInput.shared tasks servingConfigurator :=
  .inl ⟨"new default", rfl, by decide⟩

end IngressController.Configs
