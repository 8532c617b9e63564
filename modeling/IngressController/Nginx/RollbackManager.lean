import IngressController.Nginx.Manager

/-! # Writes with rollback

Outside batch mode every file is tested as it is written: a tree that passes is replaced by one that
passes, or it stays.
-/

namespace IngressController.Nginx

open FileTree FileTree.ChangesOnly

namespace ConfigRollbackManager

variable (host : Host) (cm : ConfigRollbackManager)

/-- Whether a file stays when its write fails. -/
def protectFromDeletion (path : String) : Bool :=
  path = mainConfFilename || path = defaultServerConfFilename

def deleteUnlessProtected (path : String) : ConfigRollbackManager :=
  if protectFromDeletion path then cm else cm.deleteConfig path

/-- What follows the failed test of a file whose backup is written back. -/
def testRollback (name path err : String) : Outcome × ConfigRollbackManager :=
  match cm.testConfig host with
  | (none, cm) =>
    match cm.reload host with
    | (.exited, cm) => (.exited, cm)
    | (_, cm) =>
      (.failed ("configuration validation failed for " ++ name ++
        ", rolled back to previous working config: " ++ err), cm)
  | (some _, cm) =>
    -- the source repeats the test for the text of its log
    (.failed ("configuration validation failed and rollback didn't resolve issues for " ++ name ++
      ": " ++ err), (cm.testConfig host).2.deleteUnlessProtected path)

def rollback (name path : String) (backup : Option String) (err : String) :
    Outcome × ConfigRollbackManager :=
  match backup with
  | some content =>
    match cm.createFileAndWrite host path content with
    | some cm => cm.testRollback host name path err
    | none =>
      (.failed ("configuration validation failed and rollback failed for " ++ name ++ ": " ++
        err), cm.deleteUnlessProtected path)
  | none =>
    (.failed ("configuration validation failed for " ++ name ++ ": " ++ err),
      cm.deleteUnlessProtected path)

variable (name path content : String)

def writeAndTest (backup : Option String) : Outcome × ConfigRollbackManager :=
  match cm.createFileAndWrite host path content with
  | none => (.exited, cm)
  | some cm =>
    match cm.testConfig host with
    | (none, cm) => (.returned true, cm)
    | (some err, cm) => cm.rollback host name path backup err

def createConfigWithRollback : Outcome × ConfigRollbackManager :=
  match cm.files[path]? with
  | none => cm.writeAndTest host name path content none
  | some existing =>
    if existing = content then
      match cm.testConfig host with
      | (none, cm) => (.returned false, cm)
      | (some err, cm) =>
        (.failed ("configuration " ++ name ++ " was already validated and found invalid: " ++
          err), cm)
    else
      match cm.testConfig host with
      | (none, cm) => cm.writeAndTest host name path content (some existing)
      | (some _, cm) => cm.writeAndTest host name path content none

def createMainConfig (content : String) : Outcome × ConfigRollbackManager :=
  if cm.configVersion = 0 then cm.createLocalConfig host mainConfFilename content
  else cm.createConfigWithRollback host "nginx.conf" mainConfFilename content

/-- The file is tracked, also where it is left as it is. -/
def batchWriteConfig : Outcome × ConfigRollbackManager :=
  if cm.files[path]? = some content then
    (.returned false, { cm with batchFiles := cm.batchFiles.insert path name })
  else
    match cm.createFileAndWrite host path content with
    | some cm => (.returned true, { cm with batchFiles := cm.batchFiles.insert path name })
    | none => (.exited, cm)

def createStreamConfig (name : FileName) (content : String) : Outcome × ConfigRollbackManager :=
  if cm.batchMode then cm.batchWriteConfig host name (getFilenameForStreamConfig name) content
  else cm.createConfigWithRollback host name (getFilenameForStreamConfig name) content

/-- The first write of the default server is not tested. -/
def createConfig (name : FileName) (content : String) : Outcome × ConfigRollbackManager :=
  if cm.initialDefaultServerPending ∧ getFilenameForConfig name = defaultServerConfFilename then
    ({ cm with initialDefaultServerPending := false } :
      ConfigRollbackManager).createLocalConfig host
      (getFilenameForConfig name) content
  else if cm.batchMode then cm.batchWriteConfig host name (getFilenameForConfig name) content
  else cm.createConfigWithRollback host name (getFilenameForConfig name) content

variable {host cm} {path content : String} (hwritable : host.IsWritable)
include hwritable

theorem writeAndTest_of_passes {name : String}
    (h : host.passes (cm.files.insert path content) = true) (backup : Option String) :
    cm.writeAndTest host name path content backup =
      (.returned true, cm.update (cm.files.insert path content) (cm.tests + 1)) := by
  have htest : (cm.update (cm.files.insert path content) cm.tests).testConfig host = _ :=
    testConfig_of_passes h
  rw [writeAndTest, createFileAndWrite_of_writable hwritable]
  dsimp only
  rw [htest]
  rfl

def leftBy (files : FileTree) (path content : String) : FileTree :=
  if protectFromDeletion path then files.insert path content else files.erase path

theorem writeAndTest_of_fails {name : String}
    (h : host.passes (cm.files.insert path content) = false) :
    ∃ err, cm.writeAndTest host name path content none =
      (.failed err, cm.update (leftBy cm.files path content) (cm.tests + 1)) := by
  have htest : (cm.update (cm.files.insert path content) cm.tests).testConfig host = _ :=
    testConfig_of_fails h
  rw [writeAndTest, createFileAndWrite_of_writable hwritable]
  dsimp only
  rw [htest]
  refine ⟨_, Prod.ext rfl ?_⟩
  dsimp only [rollback]
  unfold deleteUnlessProtected leftBy
  split
  · rfl
  · rw [deleteConfig_eq]
    simp only [files_update, tests_update, update_update, erase_insert]

/-- A failed write with a backup restores the file, and NGINX is reloaded. -/
theorem writeAndTest_of_backup {name backup : String} (hbackup : cm.files[path]? = some backup)
    (hpasses : host.passes cm.files = true)
    (h : host.passes (cm.files.insert path content) = false) :
    ∃ err, cm.writeAndTest host name path content (some backup) =
      (.failed err, ((cm.update cm.files (cm.tests + 2)).reload host).2) := by
  have hrestored : (cm.files.insert path content).insert path backup = cm.files :=
    insert_insert_of_get hbackup content
  have htest : (cm.update (cm.files.insert path content) cm.tests).testConfig host = _ :=
    testConfig_of_fails h
  have hretest : (cm.update cm.files (cm.tests + 1)).testConfig host = _ :=
    testConfig_of_passes hpasses
  obtain ⟨outcome, loaded, houtcome, hreload⟩ : ∃ outcome loaded, outcome ≠ Outcome.exited ∧
      (cm.update cm.files (cm.tests + 2)).reload host = (outcome, _) := reload_spec hwritable
  rw [writeAndTest, createFileAndWrite_of_writable hwritable]
  dsimp only
  rw [htest]
  simp only [rollback, createFileAndWrite_of_writable hwritable, files_update, tests_update,
    update_update, hrestored, testRollback, hretest, hreload]
  cases outcome with
  | returned | failed => exact ⟨_, rfl⟩
  | exited => exact absurd rfl houtcome

/-- How a write to a tree that passes ends. -/
inductive WriteCase (host : Host) (cm : ConfigRollbackManager) (path content : String) :
    Outcome × ConfigRollbackManager → Prop where
  | same (tests : Nat) (h : cm.files[path]? = some content) :
      WriteCase host cm path content (.returned false, cm.update cm.files tests)
  | written (tests : Nat) (h : cm.files[path]? ≠ some content)
      (hpasses : host.passes (cm.files.insert path content) = true) :
      WriteCase host cm path content
        (.returned true, cm.update (cm.files.insert path content) tests)
  | removed (err : String) (tests : Nat) (h : cm.files[path]? = none)
      (hfails : host.passes (cm.files.insert path content) = false) :
      WriteCase host cm path content (.failed err, cm.update cm.files tests)
  | rolledBack (err old : String) (tests : Nat) (h : cm.files[path]? = some old)
      (hne : old ≠ content) (hfails : host.passes (cm.files.insert path content) = false) :
      WriteCase host cm path content (.failed err, ((cm.update cm.files tests).reload host).2)

theorem createConfigWithRollback_of_passes (hpasses : host.passes cm.files = true)
    (hprotected : protectFromDeletion path = true → path ∈ cm.files) (name : String) :
    WriteCase host cm path content (cm.createConfigWithRollback host name path content) := by
  unfold createConfigWithRollback
  cases hfile : cm.files[path]? with
  | none =>
    have hfree : protectFromDeletion path = false := by
      cases h : protectFromDeletion path with
      | false => rfl
      | true =>
        obtain ⟨content, hcontent⟩ := mem_iff.mp (hprotected h)
        rw [hfile] at hcontent
        cases hcontent
    dsimp only
    cases h : host.passes (cm.files.insert path content) with
    | true =>
      rw [writeAndTest_of_passes hwritable h]
      exact .written _ (by simp [hfile]) h
    | false =>
      obtain ⟨err, heq⟩ : ∃ err, cm.writeAndTest host name path content none =
          (.failed err, _) := writeAndTest_of_fails hwritable h
      rw [heq, leftBy, if_neg (by simp [hfree]), erase_of_not_mem (by simp [mem_iff, hfile])]
      exact .removed err _ hfile h
  | some existing =>
    dsimp only
    by_cases heq : existing = content
    · subst heq
      rw [if_pos rfl, testConfig_of_passes hpasses]
      exact .same _ hfile
    rw [if_neg heq, testConfig_of_passes hpasses]
    dsimp only
    cases h : host.passes (cm.files.insert path content) with
    | true =>
      rw [writeAndTest_of_passes hwritable (by simpa using h)]
      refine .written _ ?_ h
      rw [hfile]
      exact fun hsome => heq (Option.some.inj hsome)
    | false =>
      obtain ⟨err, hwrite⟩ : ∃ err, (cm.update cm.files (cm.tests + 1)).writeAndTest host
          name path content (some existing) = (.failed err, _) :=
        writeAndTest_of_backup hwritable hfile hpasses h
      rw [hwrite]
      exact .rolledBack err existing _ hfile heq h

/-- How a write to a tree that fails ends. -/
inductive FailingWriteCase (host : Host) (cm : ConfigRollbackManager) (path content : String) :
    Outcome × ConfigRollbackManager → Prop where
  | same (err : String) (tests : Nat) (h : cm.files[path]? = some content) :
      FailingWriteCase host cm path content (.failed err, cm.update cm.files tests)
  | written (tests : Nat) (h : cm.files[path]? ≠ some content)
      (hpasses : host.passes (cm.files.insert path content) = true) :
      FailingWriteCase host cm path content
        (.returned true, cm.update (cm.files.insert path content) tests)
  | left (err : String) (tests : Nat) (h : cm.files[path]? ≠ some content)
      (hfails : host.passes (cm.files.insert path content) = false) :
      FailingWriteCase host cm path content
        (.failed err, cm.update (leftBy cm.files path content) tests)

/-- Nothing of a tree that fails is backed up. -/
theorem createConfigWithRollback_of_fails (hfails : host.passes cm.files = false) (name : String) :
    FailingWriteCase host cm path content (cm.createConfigWithRollback host name path content) := by
  have hwrite : ∀ tests, cm.files[path]? ≠ some content → FailingWriteCase host cm path content
      ((cm.update cm.files tests).writeAndTest host name path content none) := by
    intro tests hne
    cases h : host.passes (cm.files.insert path content) with
    | true =>
      rw [writeAndTest_of_passes hwritable (by simpa using h)]
      exact .written _ hne h
    | false =>
      obtain ⟨err, heq⟩ : ∃ err, (cm.update cm.files tests).writeAndTest host name path content
          none = (.failed err, _) := writeAndTest_of_fails hwritable h
      rw [heq]
      exact .left err _ hne h
  unfold createConfigWithRollback
  cases hfile : cm.files[path]? with
  | none => exact hwrite cm.tests (by simp [hfile])
  | some existing =>
    dsimp only
    by_cases heq : existing = content
    · subst heq
      rw [if_pos rfl, testConfig_of_fails hfails]
      exact .same _ _ hfile
    · rw [if_neg heq, testConfig_of_fails hfails]
      refine hwrite (cm.tests + 1) ?_
      rw [hfile]
      exact fun hsome => heq (Option.some.inj hsome)

omit hwritable

/-! ## Frames

A call changes the file it is for and the file of the version. -/

section

variable {P : String → Prop} {path content : String} (hpath : P path)
include hpath

theorem createFileAndWrite_changesOnly {written : ConfigRollbackManager}
    (h : cm.createFileAndWrite host path content = some written) :
    ChangesOnly P cm.files written.files := by
  unfold createFileAndWrite at h
  split at h
  · cases h
    exact insert hpath content
  · cases h

theorem deleteConfig_changesOnly :
    ChangesOnly P cm.files (cm.deleteConfig path).files := by
  rw [deleteConfig_eq]
  exact erase hpath

theorem deleteUnlessProtected_changesOnly :
    ChangesOnly P cm.files (cm.deleteUnlessProtected path).files := by
  unfold deleteUnlessProtected
  split
  · exact refl P _
  · exact deleteConfig_changesOnly hpath

theorem createLocalConfig_changesOnly :
    ChangesOnly P cm.files (cm.createLocalConfig host path content).2.files := by
  unfold createLocalConfig
  split
  · rename_i written h
    exact createFileAndWrite_changesOnly hpath h
  · exact refl P _

omit hpath in
theorem reload_changesOnly (hpath : P configVersionFilename) :
    ChangesOnly P cm.files (cm.reload host).2.files := by
  unfold reload updateConfigVersionFile
  split
  · exact refl P _
  rename_i written h
  have hframe := createFileAndWrite_changesOnly hpath h
  split <;> exact hframe

variable (hversion : P configVersionFilename)
include hversion

theorem testRollback_changesOnly (name err : String) :
    ChangesOnly P cm.files (cm.testRollback host name path err).2.files := by
  have hreload : ChangesOnly P cm.files ((cm.testConfig host).2.reload host).2.files :=
    reload_changesOnly hversion
  have hdelete : ChangesOnly P cm.files
      (((cm.testConfig host).2.testConfig host).2.deleteUnlessProtected path).files :=
    deleteUnlessProtected_changesOnly hpath
  unfold testRollback
  split
  · rename_i tested htest
    rw [htest] at hreload
    split
    all_goals
      rename_i reloaded h
      rw [h] at hreload
      exact hreload
  · rename_i tested htest
    rw [htest] at hdelete
    exact hdelete

variable (name : String)

theorem rollback_changesOnly (backup : Option String) (err : String) :
    ChangesOnly P cm.files (cm.rollback host name path backup err).2.files := by
  unfold rollback
  split
  · split
    · rename_i written h
      exact (createFileAndWrite_changesOnly hpath h).trans
        (testRollback_changesOnly hpath hversion name err)
    · exact deleteUnlessProtected_changesOnly hpath
  · exact deleteUnlessProtected_changesOnly hpath

theorem writeAndTest_changesOnly (backup : Option String) :
    ChangesOnly P cm.files (cm.writeAndTest host name path content backup).2.files := by
  unfold writeAndTest
  split
  · exact refl P _
  rename_i written h
  refine (createFileAndWrite_changesOnly hpath h).trans ?_
  have hrollback : ∀ err, ChangesOnly P written.files
      ((written.testConfig host).2.rollback host name path backup err).2.files :=
    rollback_changesOnly hpath hversion name backup
  have hsame : ChangesOnly P written.files (written.testConfig host).2.files := refl P _
  generalize written.testConfig host = tested at hrollback hsame
  obtain ⟨err | err, tested⟩ := tested
  · exact hsame
  · exact hrollback err

theorem createConfigWithRollback_changesOnly :
    ChangesOnly P cm.files (cm.createConfigWithRollback host name path content).2.files := by
  have hwrite : ∀ backup, ChangesOnly P cm.files
      ((cm.testConfig host).2.writeAndTest host name path content backup).2.files :=
    fun backup => writeAndTest_changesOnly hpath hversion name backup
  unfold createConfigWithRollback
  split
  · exact writeAndTest_changesOnly hpath hversion name none
  rename_i existing _
  have hsame : ChangesOnly P cm.files (cm.testConfig host).2.files := refl P _
  generalize cm.testConfig host = tested at hwrite hsame
  obtain ⟨err, tested⟩ := tested
  split
  · cases err <;> exact hsame
  · cases err with
    | none => exact hwrite (some existing)
    | some err => exact hwrite none

omit hversion in
theorem batchWriteConfig_changesOnly (name : String) :
    ChangesOnly P cm.files (cm.batchWriteConfig host name path content).2.files := by
  unfold batchWriteConfig
  split
  · exact refl P _
  · split
    · rename_i written h
      have hframe := createFileAndWrite_changesOnly hpath h
      exact hframe
    · exact refl P _

omit hpath hversion

theorem createStreamConfig_changesOnly {name : FileName}
    (hpath : P (getFilenameForStreamConfig name)) (hversion : P configVersionFilename) :
    ChangesOnly P cm.files (cm.createStreamConfig host name content).2.files := by
  unfold createStreamConfig
  split
  · exact batchWriteConfig_changesOnly hpath _
  · exact createConfigWithRollback_changesOnly hpath hversion _

theorem createConfig_changesOnly {name : FileName} (hpath : P (getFilenameForConfig name))
    (hversion : P configVersionFilename) :
    ChangesOnly P cm.files (cm.createConfig host name content).2.files := by
  unfold createConfig
  split
  · exact createLocalConfig_changesOnly hpath
  · split
    · exact batchWriteConfig_changesOnly hpath _
    · exact createConfigWithRollback_changesOnly hpath hversion _

end

end ConfigRollbackManager

/-! ## Runs of writes -/

open ConfigRollbackManager in
/-- A tree that passes also does with the version that a reload writes. -/
def Host.AcceptsVersions (host : Host) : Prop :=
  ∀ (files : FileTree) configVersion, host.passes files = true →
    host.passes (files.insert configVersionFilename (generateVersionConfig configVersion)) = true

inductive ConfigWrite where
  | main (content : String)
  | http (name : FileName) (content : String)
  | stream (name : FileName) (content : String)

namespace ConfigWrite

def path : ConfigWrite → String
  | main _ => mainConfFilename
  | http name _ => getFilenameForConfig name
  | stream name _ => getFilenameForStreamConfig name

def content : ConfigWrite → String
  | main content | http _ content | stream _ content => content

def run (host : Host) (cm : ConfigRollbackManager) : ConfigWrite → Outcome × ConfigRollbackManager
  | main content => cm.createMainConfig host content
  | http name content => cm.createConfig host name content
  | stream name content => cm.createStreamConfig host name content

end ConfigWrite

namespace ConfigRollbackManager

/-- The manager after a sequence of calls; none is made once the process has ended. -/
def runWrites (host : Host) (cm : ConfigRollbackManager) : List ConfigWrite → ConfigRollbackManager
  | [] => cm
  | w :: rest =>
    match w.run host cm with
    | (.exited, cm) => cm
    | (_, cm) => runWrites host cm rest

/-- The state after startup, outside batch mode. -/
structure IsServing (host : Host) (cm : ConfigRollbackManager) : Prop where
  passes : host.passes cm.files = true
  main : mainConfFilename ∈ cm.files
  defaultServer : defaultServerConfFilename ∈ cm.files
  configVersion : 0 < cm.configVersion
  notPending : cm.initialDefaultServerPending = false
  notBatch : cm.batchMode = false

variable {host : Host} {cm : ConfigRollbackManager} (h : cm.IsServing host)
include h

theorem IsServing.writeCase (hwritable : host.IsWritable) (w : ConfigWrite) :
    WriteCase host cm w.path w.content (w.run host cm) := by
  have hprotected : ∀ path, protectFromDeletion path = true → path ∈ cm.files := by
    intro path hpath
    simp only [protectFromDeletion, Bool.or_eq_true, decide_eq_true_eq] at hpath
    rcases hpath with rfl | rfl
    · exact h.main
    · exact h.defaultServer
  have hspec : ∀ name path content,
      WriteCase host cm path content (cm.createConfigWithRollback host name path content) :=
    fun name path _ => createConfigWithRollback_of_passes hwritable h.passes (hprotected path) name
  cases w with
  | main content =>
    rw [ConfigWrite.run, createMainConfig, if_neg (Nat.pos_iff_ne_zero.mp h.configVersion)]
    exact hspec _ _ _
  | http name content =>
    rw [ConfigWrite.run, createConfig, if_neg (by simp [h.notPending]),
      if_neg (by simp [h.notBatch])]
    exact hspec _ _ _
  | stream name content =>
    rw [ConfigWrite.run, createStreamConfig, if_neg (by simp [h.notBatch])]
    exact hspec _ _ _

/-- Other files keep the manager serving if the test passes on them and nothing is missing. -/
theorem IsServing.update {files : FileTree} (hpasses : host.passes files = true)
    (hfiles : ∀ path ∈ cm.files, path ∈ files) (tests : Nat) :
    (cm.update files tests).IsServing host where
  passes := hpasses
  main := hfiles _ h.main
  defaultServer := hfiles _ h.defaultServer
  configVersion := h.configVersion
  notPending := h.notPending
  notBatch := h.notBatch

omit h in
theorem mem_insert_of_mem {files : FileTree} {path : String} (key content : String)
    (h : path ∈ files) : path ∈ files.insert key content :=
  Std.ExtTreeMap.mem_insert.mpr (.inr h)

variable (hwritable : host.IsWritable)
include hwritable

theorem IsServing.reload (hpasses : host.passes (cm.files.insert configVersionFilename
      (generateVersionConfig (cm.configVersion + 1))) = true) :
    (cm.reload host).2.IsServing host := by
  obtain ⟨outcome, loaded, -, heq⟩ : ∃ outcome loaded, outcome ≠ Outcome.exited ∧
      cm.reload host = (outcome, _) := reload_spec hwritable
  rw [heq]
  exact {
    passes := hpasses
    main := mem_insert_of_mem _ _ h.main
    defaultServer := mem_insert_of_mem _ _ h.defaultServer
    configVersion := Nat.succ_pos _
    notPending := h.notPending
    notBatch := h.notBatch }

theorem IsServing.write (hversion : host.AcceptsVersions) (w : ConfigWrite) :
    (w.run host cm).2.IsServing host := by
  have hcase := h.writeCase hwritable w
  generalize w.run host cm = result at hcase
  cases hcase with
  | same | removed => exact h.update h.passes (fun _ hpath => hpath) _
  | written tests _ hpasses => exact h.update hpasses (fun _ => mem_insert_of_mem _ _) tests
  | rolledBack err old tests _ _ _ =>
    exact (h.update h.passes (fun _ hpath => hpath) tests).reload hwritable
      (hversion _ _ h.passes)

theorem IsServing.runWrites (hversion : host.AcceptsVersions) (ws : List ConfigWrite) :
    (cm.runWrites host ws).IsServing host := by
  induction ws generalizing cm with
  | nil => exact h
  | cons w ws ih =>
    have hwrite := h.write hwritable hversion w
    unfold ConfigRollbackManager.runWrites
    split <;> rename_i heq <;> rw [heq] at hwrite
    · exact hwrite
    · exact ih hwrite

omit hwritable h

end ConfigRollbackManager

/-- A call leaves a tree that passes: the old one with the new file, or the old one, where only a
reload may have changed the version. -/
structure IsAtomic (host : Host) (before : FileTree) (path content : String)
    (result : Outcome × ConfigRollbackManager) : Prop where
  passes : host.passes result.2.files = true
  returns : result.1 ≠ .exited
  failed : ∀ err, result.1 = .failed err →
    ∀ path ≠ configVersionFilename, result.2.files[path]? = before[path]?
  changed : result.1 = .returned true → result.2.files = before.insert path content
  unchanged : result.1 = .returned false → result.2.files = before

open ConfigRollbackManager in
theorem ConfigRollbackManager.WriteCase.isAtomic {host : Host} {cm : ConfigRollbackManager}
    {path content : String} {result : Outcome × ConfigRollbackManager}
    (h : WriteCase host cm path content result) (hwritable : host.IsWritable)
    (hpasses : host.passes result.2.files = true) :
    IsAtomic host cm.files path content result := by
  cases h with
  | same | written | removed => exact ⟨hpasses, by simp, by simp, by simp, by simp⟩
  | rolledBack err old tests _ _ _ =>
    refine ⟨hpasses, by simp, fun _ _ path hpath => ?_, by simp, by simp⟩
    obtain ⟨outcome, loaded, -, heq⟩ : ∃ outcome loaded, outcome ≠ Outcome.exited ∧
        (cm.update cm.files tests).reload host = (outcome, _) := reload_spec hwritable
    rw [heq]
    simp [hpath.symm]

/-- Every call of a sequence starts from a tree that passes and is atomic. -/
theorem writes_are_atomic (host : Host) (hwritable : host.IsWritable)
    (hversion : host.AcceptsVersions) (cm : ConfigRollbackManager) (h : cm.IsServing host)
    (ws : List ConfigWrite) (w : ConfigWrite) :
    host.passes (cm.runWrites host ws).files = true ∧
      IsAtomic host (cm.runWrites host ws).files w.path w.content
        (w.run host (cm.runWrites host ws)) := by
  have hserving := h.runWrites hwritable hversion ws
  exact ⟨hserving.passes, (hserving.writeCase hwritable w).isAtomic hwritable
    (hserving.write hwritable hversion w).passes⟩

def Host.rejecting (path content : String) : Host where
  passes files := files[path]? ≠ some content

theorem Host.acceptsVersions_rejecting {path : String} (h : path ≠ configVersionFilename)
    (content : String) : (Host.rejecting path content).AcceptsVersions := by
  intro files version
  simp [rejecting, h.symm]

def threeFiles : FileTree :=
  Std.ExtTreeMap.ofList [(mainConfFilename, "main"), (defaultServerConfFilename, "default"),
    ("/etc/nginx/conf.d/cafe.conf", "cafe")]

def servingThree : ConfigRollbackManager where
  files := threeFiles
  loaded := threeFiles
  configVersion := 1
  initialDefaultServerPending := false

def badCafe : ConfigWrite := .http ⟨"cafe", by decide⟩ "bad"

theorem isServing_servingThree :
    servingThree.IsServing (.rejecting "/etc/nginx/conf.d/cafe.conf" "bad") :=
  ⟨by decide +kernel, by decide +kernel, by decide +kernel, by decide +kernel, rfl, rfl⟩

/-- The reload that ends a rollback rewrites the version file. -/
theorem failed_write_changes_version :
    let host := Host.rejecting "/etc/nginx/conf.d/cafe.conf" "bad"
    servingThree.IsServing host ∧
      (badCafe.run host servingThree).1 = .failed
        "configuration validation failed for cafe, rolled back to previous working config: " ∧
      (badCafe.run host servingThree).2.files ≠ servingThree.files := by
  exact ⟨isServing_servingThree, by decide +kernel, by decide +kernel⟩

theorem writes_are_atomic_badCafe :
    let host := Host.rejecting "/etc/nginx/conf.d/cafe.conf" "bad"
    IsAtomic host (servingThree.runWrites host [badCafe, .main "other"]).files badCafe.path "bad"
      (badCafe.run host (servingThree.runWrites host [badCafe, .main "other"])) := by
  have hversion := Host.acceptsVersions_rejecting
    (show "/etc/nginx/conf.d/cafe.conf" ≠ configVersionFilename by decide) "bad"
  exact (writes_are_atomic _ (fun _ _ => rfl) hversion servingThree isServing_servingThree
    [badCafe, .main "other"] badCafe).2

end IngressController.Nginx
