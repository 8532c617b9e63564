import IngressController.Configurator.FileNames
import IngressController.Generator.VirtualServer
import IngressController.Nginx.RollbackManager

/-! # Updates of VirtualServers

An update writes the App Protect files, the OIDC file and the server file. Only the last of them is
written with a rollback.
-/

namespace IngressController.Configs

open Nginx ConfigRollbackManager FileTree

/-- The texts that the templates give, or their errors. -/
structure Templates where
  executeVirtualServerTemplate : Version2.VirtualServerConfig → Except String String
  executeOIDCTemplate : Version2.OIDC → Except String String

structure RenderedVirtualServer where
  server : String
  oidc : Option String

def renderOIDC (templates : Templates) (m : ObjectMeta) (oidc : Option Version2.OIDC) :
    Except String (Option String) :=
  match oidc with
  | none => .ok none
  | some oidc =>
    match templates.executeOIDCTemplate oidc with
    | .ok content => .ok (some content)
    | .error err =>
      .error ("error generating VirtualServer OIDC config: " ++
        (getFileNameForOIDCVirtualServer m).val ++ ": " ++ err)

def renderVirtualServer (templates : Templates) (m : ObjectMeta)
    (cfg : Version2.VirtualServerConfig) : Except String RenderedVirtualServer :=
  match templates.executeVirtualServerTemplate cfg with
  | .error err =>
    .error ("error generating VirtualServer config: " ++ (getFileNameForVirtualServer m).val ++
      ": " ++ err)
  | .ok server => (renderOIDC templates m cfg.server.oidc).map fun oidc => ⟨server, oidc⟩

/-- The files of App Protect; a file that cannot be written ends the process. -/
def createAppProtectResourceFiles (host : Host) (cm : ConfigRollbackManager) :
    List ProtectFile → Option ConfigRollbackManager
  | [] => some cm
  | f :: rest =>
    match cm.createFileAndWrite host f.path f.content with
    | none => none
    | some cm => createAppProtectResourceFiles host cm rest

/-- The OIDC file is written first, as the server file includes it. -/
def writeOIDC (host : Host) (cm : ConfigRollbackManager) (m : ObjectMeta) (oidc : Option String) :
    Outcome × ConfigRollbackManager :=
  match oidc with
  | none => (.returned false, cm)
  | some content => cm.createOIDCConfig host (getFileNameForOIDCVirtualServer m) content

def writeVirtualServer (host : Host) (cm : ConfigRollbackManager) (m : ObjectMeta)
    (rendered : RenderedVirtualServer) : Outcome × ConfigRollbackManager :=
  match writeOIDC host cm m rendered.oidc with
  | (.returned oidcChanged, cm) =>
    match cm.createConfig host (getFileNameForVirtualServer m) rendered.server with
    | (.returned changed, cm) => (.returned (changed || oidcChanged), cm)
    | (.failed err, cm) =>
      (.failed ("error validating VirtualServer config " ++
        (getFileNameForVirtualServer m).val ++ ": " ++ err), cm)
    | (.exited, cm) => (.exited, cm)
  | other => other

/-- `none` is a nil pointer that the generator dereferences. -/
def addOrUpdateVirtualServer (host : Host) (templates : Templates)
    (vsc : VirtualServerConfigurator) (protectFiles : List ProtectFile) (vsEx : VirtualServerEx)
    (cm : ConfigRollbackManager) : Option (Outcome × ConfigRollbackManager) :=
  match createAppProtectResourceFiles host cm protectFiles with
  | none => some (.exited, cm)
  | some cm =>
    (generateVirtualServerConfig vsc vsEx).map fun cfg =>
      match renderVirtualServer templates vsEx.virtualServer.objectMeta cfg with
      | .error err => (.failed err, cm)
      | .ok rendered => writeVirtualServer host cm vsEx.virtualServer.objectMeta rendered

/-! ## The files of an update -/

section

variable {host : Host} {cm : ConfigRollbackManager} (m : ObjectMeta)

def serverPath : String := getFilenameForConfig (getFileNameForVirtualServer m)

def oidcPath : String :=
  getFilenameForOIDCConfig (getFileNameForOIDCVirtualServer m)

variable (files : FileTree)

def withProtectFiles (protectFiles : List ProtectFile) : FileTree :=
  protectFiles.foldl (fun files f => files.insert f.path f.content) files

def withOIDC (m : ObjectMeta) (oidc : Option String) : FileTree :=
  match oidc with
  | none => files
  | some content => files.insert (oidcPath m) content

def withVirtualServer (m : ObjectMeta) (rendered : RenderedVirtualServer) : FileTree :=
  (withOIDC files m rendered.oidc).insert (serverPath m) rendered.server

theorem serverPath_ne_oidcPath : serverPath m ≠ oidcPath m :=
  ne_of_letter (by decide) (letter_conf _) (letter_oidcConf _)

theorem serverPath_ne_default : serverPath m ≠ defaultServerConfFilename := by
  rw [← getFilenameForConfig_defaultServer]
  exact fun h => getFileNameForVirtualServer_ne_default m (getFilenameForConfig_inj h)

theorem not_protected_serverPath : protectFromDeletion (serverPath m) = false := by
  have hmain : serverPath m ≠ mainConfFilename :=
    ne_of_letter (show 'c' ≠ 'n' by decide) (letter_conf _) (by decide)
  simp [protectFromDeletion, hmain, serverPath_ne_default m]

theorem version_ne_serverPath : configVersionFilename ≠ serverPath m :=
  (getFilenameForConfig_ne_version _).symm

theorem version_ne_oidcPath : configVersionFilename ≠ oidcPath m :=
  ne_of_letter (show 'c' ≠ 'o' by decide) (by decide) (letter_oidcConf _)

theorem get_withProtectFiles {path : String} (protectFiles : List ProtectFile)
    (h : ∀ f : ProtectFile, f.path ≠ path) :
    (withProtectFiles files protectFiles)[path]? = files[path]? := by
  refine Table.get_foldl_write_of_notMem ProtectFile.content files fun hin => ?_
  obtain ⟨f, -, hf⟩ := List.mem_map.mp hin
  exact h f hf

theorem protect_ne_serverPath (f : ProtectFile) : f.path ≠ serverPath m := by
  rcases letter_protect f with h | h <;> exact ne_of_letter (by decide) h (letter_conf _)

theorem protect_ne_oidcPath (f : ProtectFile) : f.path ≠ oidcPath m := by
  rcases letter_protect f with h | h <;> exact ne_of_letter (by decide) h (letter_oidcConf _)

variable {m} (hwritable : host.IsWritable)
include hwritable

theorem createAppProtectResourceFiles_eq (protectFiles : List ProtectFile) :
    createAppProtectResourceFiles host cm protectFiles =
      some (cm.update (withProtectFiles cm.files protectFiles) cm.tests) := by
  induction protectFiles generalizing cm with
  | nil => rfl
  | cons f rest ih =>
    rw [createAppProtectResourceFiles, createFileAndWrite_of_writable hwritable]
    exact ih

theorem writeOIDC_eq (m : ObjectMeta) (oidc : Option String) : ∃ changed, writeOIDC host cm m oidc =
      (.returned changed, cm.update (withOIDC cm.files m oidc) cm.tests) := by
  cases oidc with
  | none => exact ⟨false, rfl⟩
  | some content =>
    refine ⟨cm.configContentsChanged (oidcPath m) content, ?_⟩
    rw [writeOIDC, createOIDCConfig, createLocalConfig, createFileAndWrite_of_writable hwritable]
    rfl

variable (hbatch : cm.batchMode = false)
include hbatch

omit hwritable in
theorem createConfig_eq (m : ObjectMeta) (content : String) :
    cm.createConfig host (getFileNameForVirtualServer m) content =
      cm.createConfigWithRollback host (getFileNameForVirtualServer m) (serverPath m) content := by
  have hpending : ¬ (cm.initialDefaultServerPending = true ∧
      getFilenameForConfig (getFileNameForVirtualServer m) = defaultServerConfFilename) :=
    fun h => serverPath_ne_default m h.2
  rw [createConfig, if_neg hpending, if_neg (by simp [hbatch])]
  rfl

/-- How the write of a server file ends, after that of the OIDC file. -/
inductive ServerWriteCase (host : Host) (cm : ConfigRollbackManager) (m : ObjectMeta)
    (content : String) : Outcome × ConfigRollbackManager → Prop where
  | written (changed : Bool) (tests : Nat)
      (h : host.passes (cm.files.insert (serverPath m) content) = true) :
      ServerWriteCase host cm m content
        (.returned changed, cm.update (cm.files.insert (serverPath m) content) tests)
  | removed (err : String) (tests : Nat)
      (h : host.passes (cm.files.insert (serverPath m) content) = false)
      (hpasses : host.passes cm.files = true) (hnone : cm.files[serverPath m]? = none) :
      ServerWriteCase host cm m content (.failed err, cm.update cm.files tests)
  | rolledBack (err : String) (tests : Nat)
      (h : host.passes (cm.files.insert (serverPath m) content) = false)
      (hpasses : host.passes cm.files = true) (hmem : serverPath m ∈ cm.files) :
      ServerWriteCase host cm m content (.failed err, ((cm.update cm.files tests).reload host).2)
  | broken (err : String) (tests : Nat) (files : FileTree)
      (h : host.passes (cm.files.insert (serverPath m) content) = false)
      (hfails : host.passes cm.files = false)
      (hfiles : files = cm.files ∨ serverPath m ∈ cm.files ∧ serverPath m ∉ files) :
      ServerWriteCase host cm m content (.failed err, cm.update files tests)

theorem createConfig_case (m : ObjectMeta) (content : String) : ServerWriteCase host cm m content
      (cm.createConfig host (getFileNameForVirtualServer m) content) := by
  have hfree := not_protected_serverPath m
  rw [createConfig_eq hbatch]
  generalize hrun : cm.createConfigWithRollback host _ (serverPath m) content = result
  cases hpasses : host.passes cm.files with
  | true =>
    have hcase : WriteCase host cm (serverPath m) content result := hrun ▸
      createConfigWithRollback_of_passes hwritable hpasses (fun h => by rw [hfree] at h; cases h) _
    cases hcase with
    | same tests h =>
      have heq := insert_of_get h
      have hwritten : ServerWriteCase host cm m content
          (.returned false, cm.update (cm.files.insert (serverPath m) content) tests) :=
        .written false tests (by rw [heq, hpasses])
      rwa [heq] at hwritten
    | written tests _ h => exact .written true tests h
    | removed err tests hnone h => exact .removed err tests h hpasses hnone
    | rolledBack err old tests hold _ h =>
      exact .rolledBack err tests h hpasses (mem_iff.mpr ⟨old, hold⟩)
  | false =>
    have hcase : FailingWriteCase host cm (serverPath m) content result :=
      hrun ▸ createConfigWithRollback_of_fails hwritable hpasses _
    cases hcase with
    | same err tests h =>
      refine .broken err tests cm.files ?_ hpasses (.inl rfl)
      rw [insert_of_get h, hpasses]
    | written tests _ h => exact .written true tests h
    | left err tests _ h =>
      refine .broken err tests _ h hpasses ?_
      rw [leftBy, if_neg (by simp [hfree])]
      by_cases hmem : serverPath m ∈ cm.files
      · exact .inr ⟨hmem, by simp⟩
      · exact .inl (erase_of_not_mem hmem)

theorem writeVirtualServer_case (m : ObjectMeta) (rendered : RenderedVirtualServer) :
    ServerWriteCase host (cm.update (withOIDC cm.files m rendered.oidc) cm.tests) m rendered.server
      (writeVirtualServer host cm m rendered) := by
  obtain ⟨oidcChanged, hoidc⟩ : ∃ changed, writeOIDC host cm m rendered.oidc =
    (.returned changed, _) := writeOIDC_eq hwritable m rendered.oidc
  unfold writeVirtualServer
  rw [hoidc]
  dsimp only
  generalize hcm : cm.update (withOIDC cm.files m rendered.oidc) cm.tests = cm'
  have hcase := createConfig_case hwritable (show cm'.batchMode = false from hcm ▸ hbatch) m
    rendered.server
  generalize cm'.createConfig host (getFileNameForVirtualServer m) rendered.server = result at hcase
  cases hcase with
  | written changed tests h => exact .written _ tests h
  | removed err tests h hpasses hnone => exact .removed _ tests h hpasses hnone
  | rolledBack err tests h hpasses hmem => exact .rolledBack _ tests h hpasses hmem
  | broken err tests files h hfails hfiles => exact .broken _ tests files h hfails hfiles

omit hbatch hwritable

/-- An error leaves the files of the VirtualServer and a tree that passes; without one, the new
files are in a tree that passes. -/
structure KeepsServing (host : Host) (before : FileTree) (m : ObjectMeta)
    (rendered : Except String RenderedVirtualServer) (result : Outcome × ConfigRollbackManager) :
    Prop where
  failed : ∀ err, result.1 = .failed err →
    result.2.files[serverPath m]? = before[serverPath m]? ∧
      result.2.files[oidcPath m]? = before[oidcPath m]? ∧ host.passes result.2.files = true
  returned : ∀ changed, result.1 = .returned changed → host.passes result.2.files = true ∧
    ∃ contents, rendered = .ok contents ∧
      result.2.files[serverPath m]? = some contents.server ∧
      ∀ oidc, contents.oidc = some oidc → result.2.files[oidcPath m]? = some oidc

/-- The tree with the new files passes, or the OIDC file stays as it is and the tree passes without
the new server file (with the version of the reload that ends a rollback). -/
def CanUpdate (host : Host) (cm : ConfigRollbackManager) (m : ObjectMeta) (files : FileTree) :
    Except String RenderedVirtualServer → Prop
  | .error _ => host.passes files = true
  | .ok rendered =>
    host.passes (withVirtualServer files m rendered) = true ∨
      (∀ oidc, rendered.oidc = some oidc → cm.files[oidcPath m]? = some oidc) ∧
      host.passes files = true ∧
      (serverPath m ∈ cm.files → host.passes (files.insert configVersionFilename
        (generateVersionConfig (cm.configVersion + 1))) = true)

theorem get_withOIDC_server (oidc : Option String) :
    (withOIDC files m oidc)[serverPath m]? = files[serverPath m]? := by
  cases oidc with
  | none => rfl
  | some content => simp [withOIDC, (serverPath_ne_oidcPath m).symm]

theorem get_withOIDC_oidc (oidc : Option String) :
    (withOIDC files m oidc)[oidcPath m]? = files[oidcPath m]? ↔
      ∀ content, oidc = some content → files[oidcPath m]? = some content := by
  cases oidc with
  | none => simp [withOIDC]
  | some content =>
    simp only [withOIDC, Table.get_insert, if_true, Option.some.injEq, forall_eq']
    exact eq_comm

theorem withOIDC_eq_self {files : FileTree} {oidc : Option String}
    (h : ∀ content, oidc = some content → files[oidcPath m]? = some content) :
    withOIDC files m oidc = files := by
  cases oidc with
  | none => rfl
  | some content => exact insert_of_get (h content rfl)

/-- A failed write keeps serving exactly if it leaves the two files and a tree that passes. -/
theorem keepsServing_failed_iff {before : FileTree} {err : String} {after : ConfigRollbackManager}
    (rendered : Except String RenderedVirtualServer) :
    KeepsServing host before m rendered (.failed err, after) ↔
      after.files[serverPath m]? = before[serverPath m]? ∧
        after.files[oidcPath m]? = before[oidcPath m]? ∧ host.passes after.files = true :=
  ⟨fun h => h.failed err rfl, fun h => ⟨fun _ _ => h, fun _ hreturned => by cases hreturned⟩⟩

theorem keepsServing_write_iff (hwritable : host.IsWritable) (hbatch : cm.batchMode = false)
    {files : FileTree} (hserver : files[serverPath m]? = cm.files[serverPath m]?)
    (hoidc : files[oidcPath m]? = cm.files[oidcPath m]?) (tests : Nat)
    (rendered : RenderedVirtualServer) :
    KeepsServing host cm.files m (.ok rendered)
        (writeVirtualServer host (cm.update files tests) m rendered) ↔
      CanUpdate host cm m files (.ok rendered) := by
  have hcase : ServerWriteCase host (cm.update (withOIDC files m rendered.oidc) tests) m
      rendered.server (writeVirtualServer host (cm.update files tests) m rendered) :=
    writeVirtualServer_case hwritable
      (show (cm.update files tests).batchMode = false from hbatch) m rendered
  have hserver' : (withOIDC files m rendered.oidc)[serverPath m]? = cm.files[serverPath m]? :=
    (get_withOIDC_server files rendered.oidc).trans hserver
  have hsame : (withOIDC files m rendered.oidc)[oidcPath m]? = cm.files[oidcPath m]? ↔
      ∀ oidc, rendered.oidc = some oidc → cm.files[oidcPath m]? = some oidc := by
    rw [← hoidc]
    exact get_withOIDC_oidc files rendered.oidc
  have hself : (∀ oidc, rendered.oidc = some oidc → cm.files[oidcPath m]? = some oidc) →
      withOIDC files m rendered.oidc = files := by
    rw [← hoidc]
    exact withOIDC_eq_self
  have hput : ∀ oidc, rendered.oidc = some oidc →
      (withOIDC files m rendered.oidc)[oidcPath m]? = some oidc := by
    intro oidc hsome
    simp [hsome, withOIDC]
  simp only [CanUpdate, withVirtualServer]
  generalize writeVirtualServer host (cm.update files tests) m rendered = result at hcase
  generalize withOIDC files m rendered.oidc = base at *
  cases hcase with
  | written changed tests' h =>
    refine ⟨fun _ => .inl h, fun _ => ⟨fun _ hfailed => (by cases hfailed), fun _ _ => ?_⟩⟩
    refine ⟨h, rendered, rfl, by simp, fun oidc hsome => ?_⟩
    simp [serverPath_ne_oidcPath m, hput oidc hsome]
  | removed err tests' h hpasses hnone =>
    have hnot : serverPath m ∉ cm.files := by
      rw [mem_iff, ← hserver']
      simp only [files_update] at hnone
      simp [hnone]
    rw [keepsServing_failed_iff]
    constructor
    · rintro ⟨-, hkept, -⟩
      have hoidcSame := hsame.mp hkept
      rw [← hself hoidcSame]
      exact .inr ⟨hoidcSame, hpasses, fun hmem => absurd hmem hnot⟩
    · rintro (hnew | ⟨hoidcSame, -, -⟩)
      · exact absurd (hnew.symm.trans h) (by decide)
      · exact ⟨hserver', hsame.mpr hoidcSame, hpasses⟩
  | rolledBack err tests' h hpasses hmem =>
    obtain ⟨outcome, loaded, -, hreload⟩ : ∃ outcome loaded, outcome ≠ Outcome.exited ∧
        (cm.update base tests').reload host = (outcome, _) :=
      reload_spec hwritable
    have hin : serverPath m ∈ cm.files := mem_of_get_eq hserver'.symm hmem
    rw [keepsServing_failed_iff, update_update, files_update, hreload]
    simp only [files_update, Table.get_insert, if_neg (version_ne_serverPath m),
      if_neg (version_ne_oidcPath m)]
    constructor
    · rintro ⟨-, hkept, hversion⟩
      have hoidcSame := hsame.mp hkept
      rw [files_update, hself hoidcSame] at hpasses
      rw [hself hoidcSame] at hversion
      exact .inr ⟨hoidcSame, hpasses, fun _ => hversion⟩
    · rintro (hnew | ⟨hoidcSame, -, hversion⟩)
      · exact absurd (hnew.symm.trans h) (by decide)
      · rw [← hself hoidcSame] at hversion
        exact ⟨hserver', hsame.mpr hoidcSame, hversion hin⟩
  | broken err tests' files' h hfails hfiles =>
    rw [keepsServing_failed_iff]
    constructor
    · rintro ⟨hkept, -, hpasses⟩
      rcases hfiles with rfl | ⟨hmem, hnot⟩
      · exact absurd (hpasses.symm.trans hfails) (by decide)
      · refine absurd (mem_of_get_eq (hkept.trans hserver'.symm) hmem) hnot
    · rintro (hnew | ⟨hoidcSame, hpasses, -⟩)
      · exact absurd (hnew.symm.trans h) (by decide)
      · rw [← hself hoidcSame] at hpasses
        exact absurd (hpasses.symm.trans hfails) (by decide)

end

/-- An update keeps serving exactly if it can be applied, or rejected with the OIDC file as it
is. -/
theorem addOrUpdateVirtualServer_keepsServing_iff (host : Host) (hwritable : host.IsWritable)
    (templates : Templates) (vsc : VirtualServerConfigurator) (protectFiles : List ProtectFile)
    (vsEx : VirtualServerEx) (cm : ConfigRollbackManager) (hbatch : cm.batchMode = false)
    (cfg : Version2.VirtualServerConfig)
    (hcfg : generateVirtualServerConfig vsc vsEx = some cfg) :
    let m := vsEx.virtualServer.objectMeta
    let rendered := renderVirtualServer templates m cfg
    ∃ result, addOrUpdateVirtualServer host templates vsc protectFiles vsEx cm = some result ∧
      (KeepsServing host cm.files m rendered result ↔
        CanUpdate host cm m (withProtectFiles cm.files protectFiles) rendered) := by
  intro m rendered
  have hserver := get_withProtectFiles cm.files protectFiles (protect_ne_serverPath m)
  have hoidc := get_withProtectFiles cm.files protectFiles (protect_ne_oidcPath m)
  rw [addOrUpdateVirtualServer, createAppProtectResourceFiles_eq hwritable]
  dsimp only
  rw [hcfg, Option.map_some, show renderVirtualServer templates _ cfg = rendered from rfl]
  refine ⟨_, rfl, ?_⟩
  cases rendered with
  | error err =>
    rw [keepsServing_failed_iff]
    exact ⟨fun h => h.2.2, fun h => ⟨hserver, hoidc, h⟩⟩
  | ok contents => exact keepsServing_write_iff hwritable hbatch hserver hoidc cm.tests contents

def loginPolicy : Policy where
  objectMeta := { nspace := .of "default", name := .of "login" }
  spec := { oidc := some { clientID := "cafe", pkceEnable := true } }

def cafeWithLogin : VirtualServerEx where
  virtualServer := {
    objectMeta := { nspace := .of "default", name := .of "cafe" }
    spec := {
      host := "cafe.example.com"
      policies := [{ name := "login" }]
      upstreams := [{ name := "tea", service := "tea-svc", port := 80 }]
      routes := [{ path := "/tea", action := some { pass := "tea" } }] } }
  policies := Std.ExtTreeMap.ofList [("default/login", loginPolicy)]

def newTexts : Templates where
  executeVirtualServerTemplate _ := .ok "new server"
  executeOIDCTemplate _ := .ok "new login"

def oldCafe : ConfigRollbackManager where
  files := Std.ExtTreeMap.ofList [("/etc/nginx/conf.d/vs_default_cafe.conf", "old server"),
    ("/etc/nginx/oidc-conf.d/oidc_default_cafe.conf", "old login")]
  loaded := ∅
  configVersion := 1
  initialDefaultServerPending := false

/-- A rejected server file leaves the new OIDC file. -/
theorem rejected_update_changes_oidc :
    let host := Host.rejecting "/etc/nginx/conf.d/vs_default_cafe.conf" "new server"
    host.passes oldCafe.files = true ∧
      ∃ result, addOrUpdateVirtualServer host newTexts .plain [] cafeWithLogin oldCafe =
          some result ∧
        (∃ err, result.1 = .failed err) ∧
        oldCafe.files[oidcPath cafeWithLogin.virtualServer.objectMeta]? = some "old login" ∧
        result.2.files[oidcPath cafeWithLogin.virtualServer.objectMeta]? = some "new login" := by
  have hevaluated : (addOrUpdateVirtualServer
      (Host.rejecting "/etc/nginx/conf.d/vs_default_cafe.conf" "new server") newTexts .plain []
      cafeWithLogin oldCafe).any (fun result =>
        (match result.1 with | .failed _ => true | _ => false) &&
          result.2.files[oidcPath cafeWithLogin.virtualServer.objectMeta]? = some "new login") =
      true := by
    decide +kernel
  obtain ⟨result, hresult, hfailed⟩ := (Option.any_eq_true _ _).mp hevaluated
  rw [Bool.and_eq_true, decide_eq_true_eq] at hfailed
  refine ⟨by decide +kernel, result, hresult, ?_, by decide +kernel, hfailed.2⟩
  cases houtcome : result.1 with
  | failed err => exact ⟨err, rfl⟩
  | returned | exited => simp [houtcome] at hfailed

theorem addOrUpdateVirtualServer_keepsServing_iff_cafe :
    ∃ cfg, generateVirtualServerConfig .plain cafeWithLogin = some cfg ∧
      ∃ result, addOrUpdateVirtualServer (Host.rejecting mainConfFilename "bad") newTexts .plain []
          cafeWithLogin oldCafe = some result ∧
        (KeepsServing (Host.rejecting mainConfFilename "bad") oldCafe.files
            cafeWithLogin.virtualServer.objectMeta
            (renderVirtualServer newTexts cafeWithLogin.virtualServer.objectMeta cfg) result ↔
          CanUpdate (Host.rejecting mainConfFilename "bad") oldCafe
            cafeWithLogin.virtualServer.objectMeta (withProtectFiles oldCafe.files [])
            (renderVirtualServer newTexts cafeWithLogin.virtualServer.objectMeta cfg)) := by
  have hsome : (generateVirtualServerConfig .plain cafeWithLogin).isSome = true := by decide +kernel
  obtain ⟨cfg, hcfg⟩ := Option.isSome_iff_exists.mp hsome
  exact ⟨cfg, hcfg, addOrUpdateVirtualServer_keepsServing_iff _ (fun _ _ => rfl) newTexts .plain []
    cafeWithLogin oldCafe rfl cfg hcfg⟩

end IngressController.Configs
