import IngressController.Nginx.BatchMode

/-! # Isolation of bad files

Every iteration of the loop excludes one tracked file, so the loop ends before its cap. The default
server survives whatever the test says; where the files are valid or not by themselves, exactly the
invalid ones are excluded.
-/

namespace IngressController.Nginx

open GoString FileTree FileTree.Cover.Restored Std.ExtTreeMap

namespace ConfigRollbackManager

variable {host : Host} {cm : ConfigRollbackManager}

structure HasTracked (cm : ConfigRollbackManager) : Prop where
  active : ∀ p ∈ cm.batchFiles, p ∈ cm.files
  isConf : ∀ p ∈ cm.batchFiles, isConf p = true

theorem mem_candidatePaths {p : String} : p ∈ cm.candidatePaths host ↔ p ∈ cm.batchFiles := by
  rw [candidatePaths, IterOrder.mem_visit, mem_keys]

theorem nodup_candidatePaths : (cm.candidatePaths host).Nodup :=
  host.order.nodup_visit _ nodup_keys

/-- A file is found as long as files are tracked: a bad one, if the errors name bad ones and the
test tells them. -/
theorem findBadConfig_spec (host : Host) (h : HasTracked cm) (isBad : String → Prop)
    (testErr : String) :
    ((∀ p, p ∉ cm.batchFiles) ∧ ∃ err, cm.findBadConfig host testErr = (.error err, cm)) ∨
      ∃ bad ∈ cm.batchFiles, ∃ files tests,
        cm.findBadConfig host testErr = (.ok bad, cm.update files tests) ∧
        disabling.Restored cm.batchFiles.keys cm.files files ∧
        ((∀ p, cm.parsePathFromError testErr = some p → isBad p) →
          TellsBad host isBad cm.batchFiles.keys cm.files →
          (∃ p ∈ cm.batchFiles, isBad p) → isBad bad) := by
  unfold findBadConfig
  cases hparse : cm.parsePathFromError testErr with
  | some badPath =>
    have htracked : badPath ∈ cm.batchFiles := by
      have hfind := List.find?_some hparse
      simpa using hfind
    exact .inr ⟨badPath, htracked, cm.files, cm.tests, rfl,
      refl _ _, fun hnames _ _ => hnames badPath rfl⟩
  | none =>
    by_cases hempty : cm.candidatePaths host = []
    · refine .inl ⟨fun p hp => ?_, _, if_pos hempty⟩
      have hin : p ∈ cm.candidatePaths host := mem_candidatePaths.mpr hp
      rw [hempty] at hin
      cases hin
    obtain ⟨bad, hbad, files, tests, hsearch, hrestored, htells⟩ :=
      searches_searchBadConfig isBad (Nat.le_refl _) hempty nodup_candidatePaths
        (fun p hp => h.isConf p (mem_candidatePaths.mp hp)) cm.files cm.tests
        fun p hp => h.active p (mem_candidatePaths.mp hp)
    have heq : cm.binarySearchBadConfig host (cm.candidatePaths host) =
      (.ok bad, cm.update files tests) := hsearch
    have hkeys : ∀ p, p ∈ cm.batchFiles.keys ↔ p ∈ cm.candidatePaths host := fun p =>
      mem_keys.trans mem_candidatePaths.symm
    refine .inr ⟨bad, mem_candidatePaths.mp hbad, files, tests, ?_,
      hrestored.mono fun p hp => (hkeys p).mpr hp, ?_⟩
    · simp only [if_neg hempty, heq]
    · rintro - htellsAll ⟨p, hp, hpBad⟩
      exact htells (htellsAll.congr hkeys) ⟨p, mem_candidatePaths.mpr hp, hpBad⟩

def excludedFiles (cm : ConfigRollbackManager) (path : String) : FileTree × Option String :=
  match if path = defaultServerConfFilename then cm.preBatchDefaultServer else none with
  | some snapshot => (cm.files.insert path snapshot, none)
  | none => (cm.files.erase path, cm.preBatchDefaultServer)

variable {path : String}

theorem excludeConfig_spec (hwritable : host.IsWritable) (hpath : path ∈ cm.files)
    (name reason : String) : cm.excludeConfig host path name reason = (none,
      { cm with
        files := (cm.excludedFiles path).1
        preBatchDefaultServer := (cm.excludedFiles path).2
        batchExcluded := cm.batchExcluded ++ [⟨path, name, reason⟩]
        batchFiles := cm.batchFiles.erase path }) := by
  unfold excludeConfig replaceExcluded excludedFiles
  cases if path = defaultServerConfFilename then cm.preBatchDefaultServer else none with
  | some snapshot => simp only [createFileAndWrite_of_writable hwritable, update]
  | none => simp only [remove_of_mem hpath]

/-- The excluded file is gone, or it is the default server from before the batch. -/
theorem excludedFiles_cases (cm : ConfigRollbackManager) (path : String) :
    (path = defaultServerConfFilename ∧ ∃ snapshot, cm.preBatchDefaultServer = some snapshot ∧
      cm.excludedFiles path = (cm.files.insert path snapshot, none)) ∨
    ((path = defaultServerConfFilename → cm.preBatchDefaultServer = none) ∧
      cm.excludedFiles path = (cm.files.erase path, cm.preBatchDefaultServer)) := by
  unfold excludedFiles
  by_cases hpath : path = defaultServerConfFilename
  · rw [if_pos hpath]
    cases hsnapshot : cm.preBatchDefaultServer with
    | some snapshot => exact .inl ⟨hpath, snapshot, rfl, rfl⟩
    | none => exact .inr ⟨fun _ => rfl, rfl⟩
  · rw [if_neg hpath]
    exact .inr ⟨fun heq => absurd heq hpath, rfl⟩

theorem get_excludedFiles_of_ne {q : String} (h : path ≠ q) :
    (cm.excludedFiles path).1[q]? = cm.files[q]? := by
  rcases cm.excludedFiles_cases path with ⟨-, snapshot, -, heq⟩ | ⟨-, heq⟩ <;> simp [heq, h]

def excluding (cm : ConfigRollbackManager) (path reason : String) : ConfigRollbackManager :=
  { cm with
    files := (cm.excludedFiles path).1
    preBatchDefaultServer := (cm.excludedFiles path).2
    batchExcluded := cm.batchExcluded ++ [⟨path, cm.batchFiles[path]?.getD "", reason⟩]
    batchFiles := cm.batchFiles.erase path }

theorem mem_batchFiles_excluding {reason p : String} :
    p ∈ (cm.excluding path reason).batchFiles ↔ p ≠ path ∧ p ∈ cm.batchFiles := by
  change p ∈ cm.batchFiles.erase path ↔ _
  rw [mem_iff, mem_iff, Table.get_erase]
  by_cases h : path = p
  · simp [h]
  · simp [h, Ne.symm h]

theorem HasTracked.excluding (h : HasTracked cm) (path reason : String) :
    HasTracked (cm.excluding path reason) where
  active p hp := by
    obtain ⟨hne, hp⟩ := mem_batchFiles_excluding.mp hp
    exact mem_of_get_eq (get_excludedFiles_of_ne hne.symm) (h.active p hp)
  isConf p hp := h.isConf p (mem_batchFiles_excluding.mp hp).2

variable {files : FileTree}

theorem HasTracked.of_restored (h : HasTracked cm)
    (hrestored : disabling.Restored cm.batchFiles.keys cm.files files) (tests : Nat) :
    HasTracked (cm.update files tests) where
  active p hp := by
    refine mem_of_get_eq (hrestored.get_of_read ?_ (h.isConf p hp)) (h.active p hp)
    exact fun q hq => h.isConf q (mem_keys.mp hq)
  isConf := h.isConf

theorem size_erase_lt (h : path ∈ cm.batchFiles) {n : Nat} (hsize : cm.batchFiles.size < n + 1) :
    (cm.batchFiles.erase path).size < n := by
  have hpos : 0 < cm.batchFiles.size := by
    rw [← length_keys]
    exact List.length_pos_of_mem (mem_keys.mpr h)
  rw [size_erase, if_pos (contains_iff_mem.mpr h)]
  omega

/-- One iteration: the test passes, or nothing is tracked, or a tracked file is excluded. -/
theorem isolateLoop_succ (hwritable : host.IsWritable) (h : HasTracked cm)
    (isBad : String → Prop) (maxIterations iterations : Nat) :
    (host.passes cm.files = true ∧ isolateLoop host maxIterations (iterations + 1) cm =
      (none, cm.update cm.files (cm.tests + 1))) ∨
    (host.passes cm.files = false ∧ (∀ p, p ∉ cm.batchFiles) ∧
      ∃ err, isolateLoop host maxIterations (iterations + 1) cm =
        (some err, cm.update cm.files (cm.tests + 1))) ∨
    (host.passes cm.files = false ∧ ∃ bad ∈ cm.batchFiles, ∃ files tests,
      disabling.Restored cm.batchFiles.keys cm.files files ∧
      isolateLoop host maxIterations (iterations + 1) cm =
        isolateLoop host maxIterations iterations ((cm.update files tests).excluding bad
          (host.errorText cm.tests cm.files)) ∧
      ((∀ p, cm.parsePathFromError (host.errorText cm.tests cm.files) = some p → isBad p) →
        TellsBad host isBad cm.batchFiles.keys cm.files →
        (∃ p ∈ cm.batchFiles, isBad p) → isBad bad)) := by
  rw [isolateLoop]
  cases hpasses : host.passes cm.files with
  | true =>
    rw [testConfig_of_passes hpasses]
    exact .inl ⟨rfl, rfl⟩
  | false =>
    rw [testConfig_of_fails hpasses]
    have htested : HasTracked (cm.update cm.files (cm.tests + 1)) :=
      h.of_restored (refl _ _) _
    refine .inr ?_
    rcases findBadConfig_spec host htested isBad (host.errorText cm.tests cm.files) with
      ⟨hnone, err, hfind⟩ | ⟨bad, hbad, files, tests, hfind, hrestored, htells⟩
    · refine .inl ⟨rfl, hnone, err, ?_⟩
      simp only [hfind]
    · refine .inr ⟨rfl, bad, hbad, files, tests, hrestored, ?_, htells⟩
      have hactive : HasTracked (cm.update files tests) := h.of_restored hrestored tests
      simp only [hfind, update_update]
      rw [excludeConfig_spec hwritable (hactive.active bad hbad)]
      rfl

/-- The end of a loop with more iterations than tracked files: an error leaves nothing tracked. -/
theorem isolateLoop_invariant (hwritable : host.IsWritable) {P : ConfigRollbackManager → Prop}
    (htracked : ∀ cm, P cm → HasTracked cm)
    (hrestored : ∀ cm files tests, P cm →
      disabling.Restored cm.batchFiles.keys cm.files files → P (cm.update files tests))
    (hexcluding : ∀ cm bad reason, P cm → bad ∈ cm.batchFiles → P (cm.excluding bad reason))
    (maxIterations : Nat) {iterations : Nat} (hiterations : cm.batchFiles.size < iterations)
    (h : P cm) :
    P (isolateLoop host maxIterations iterations cm).2 ∧
      ((isolateLoop host maxIterations iterations cm).1 ≠ none →
        ∀ p, p ∉ (isolateLoop host maxIterations iterations cm).2.batchFiles) := by
  induction iterations generalizing cm with
  | zero => exact absurd hiterations (Nat.not_lt_zero _)
  | succ iterations ih =>
    have hupdate : P (cm.update cm.files (cm.tests + 1)) :=
      hrestored cm _ _ h (refl _ _)
    rcases isolateLoop_succ hwritable (htracked cm h) (fun _ => False) maxIterations iterations
      with ⟨-, heq⟩ | ⟨-, hnone, err, heq⟩ | ⟨-, bad, hbad, files, tests, hfiles, heq, -⟩
    · rw [heq]
      exact ⟨hupdate, fun hsome => absurd rfl hsome⟩
    · rw [heq]
      exact ⟨hupdate, fun _ => hnone⟩
    rw [heq]
    have hupdated : P (cm.update files tests) := hrestored cm files tests h hfiles
    exact ih (size_erase_lt hbad hiterations) (hexcluding _ bad _ hupdated hbad)

/-! ## The default server -/

/-- No file of the batch is disabled that was not disabled before. -/
def NoNewDisabled (before : ConfigRollbackManager) (files : FileTree) : Prop :=
  ∀ p ∈ before.batchFiles, disabledName p ∈ files → disabledName p ∈ before.files

variable {before : ConfigRollbackManager}

theorem NoNewDisabled.of_restored {files' : FileTree} {ps : List String}
    (h : NoNewDisabled before files) (hrestored : disabling.Restored ps files files') :
    NoNewDisabled before files' := by
  intro p hp hdisabled
  refine h p hp ?_
  rcases hrestored.get_cases (disabledName p) with hnone | heq
  · exact absurd hdisabled (by simp [mem_iff, hnone])
  · exact mem_of_get_eq heq.symm hdisabled

theorem NoNewDisabled.excludedFiles (hbefore : HasTracked before)
    (h : NoNewDisabled before cm.files) {bad : String} (hbad : isConf bad = true) :
    NoNewDisabled before (cm.excludedFiles bad).1 := by
  intro p hp hdisabled
  have hne : bad ≠ disabledName p := (disabledName_ne (hbefore.isConf p hp) hbad).symm
  exact h p hp (mem_of_get_eq (get_excludedFiles_of_ne hne).symm hdisabled)

/-- What isolation keeps, whatever the test says. -/
structure KeepsDefault (before cm : ConfigRollbackManager) : Prop where
  tracked : HasTracked cm
  batchFiles : ∀ p ∈ cm.batchFiles, p ∈ before.batchFiles
  defaultServer : defaultServerConfFilename ∈ cm.files
  snapshot : defaultServerConfFilename ∈ cm.batchFiles → cm.preBatchDefaultServer.isSome = true
  disabled : NoNewDisabled before cm.files

theorem isConf_defaultServer : isConf defaultServerConfFilename = true := by decide

theorem KeepsDefault.of_restored (h : KeepsDefault before cm) (tests : Nat)
    (hrestored : disabling.Restored cm.batchFiles.keys cm.files files) :
    KeepsDefault before (cm.update files tests) := by
  have hread : ∀ p ∈ cm.batchFiles.keys, isConf p = true := fun p hp =>
    h.tracked.isConf p (mem_keys.mp hp)
  exact ⟨h.tracked.of_restored hrestored tests, h.batchFiles,
    mem_of_get_eq (hrestored.get_of_read hread isConf_defaultServer) h.defaultServer, h.snapshot,
    h.disabled.of_restored hrestored⟩

theorem KeepsDefault.excluding (hbefore : HasTracked before) (h : KeepsDefault before cm)
    {bad : String} (hbad : bad ∈ cm.batchFiles) (reason : String) :
    KeepsDefault before (cm.excluding bad reason) := by
  refine ⟨h.tracked.excluding bad reason, ?_, ?_, ?_,
    h.disabled.excludedFiles hbefore (h.tracked.isConf bad hbad)⟩
  · exact fun p hp => h.batchFiles p (mem_batchFiles_excluding.mp hp).2
  · -- the default server is tracked only while there is a snapshot
    by_cases heq : bad = defaultServerConfFilename
    · subst heq
      rcases cm.excludedFiles_cases defaultServerConfFilename with
        ⟨-, snapshot, -, hfiles⟩ | ⟨hnone, -⟩
      · change _ ∈ (cm.excludedFiles _).1
        rw [hfiles]
        exact mem_insert_self
      · have hsome := h.snapshot hbad
        rw [hnone rfl] at hsome
        cases hsome
    · exact mem_of_get_eq (get_excludedFiles_of_ne heq) h.defaultServer
  · intro hdefault
    obtain ⟨hne, hdefault⟩ := mem_batchFiles_excluding.mp hdefault
    rcases cm.excludedFiles_cases bad with ⟨heq, -⟩ | ⟨-, hfiles⟩
    · exact absurd heq hne.symm
    · change (cm.excludedFiles bad).2.isSome = true
      rw [hfiles]
      exact h.snapshot hdefault

theorem removeAllBatchFiles_of_empty (h : ∀ p, p ∉ cm.batchFiles) :
    (cm.removeAllBatchFiles host).files = cm.files := by
  have hkeys : host.order.visit cm.tests cm.batchFiles.keys = [] := by
    rw [List.eq_nil_iff_forall_not_mem]
    intro p hp
    exact h p (mem_keys.mp ((host.order.mem_visit _ _ _).mp hp))
  simp [removeAllBatchFiles, hkeys]

/-- The default server is there after the batch, and nothing is left disabled. -/
theorem completeBatch_keepsDefault (hwritable : host.IsWritable) (h : KeepsDefault cm cm) :
    defaultServerConfFilename ∈ (cm.completeBatch host).2.files ∧
      ∀ p ∈ cm.batchFiles, disabledName p ∈ (cm.completeBatch host).2.files →
        disabledName p ∈ cm.files := by
  have htested : KeepsDefault cm
      (({ cm with batchMode := false } : ConfigRollbackManager).testConfig host).2 :=
    ⟨⟨h.tracked.active, h.tracked.isConf⟩, h.batchFiles, h.defaultServer, h.snapshot, h.disabled⟩
  unfold completeBatch
  generalize ({ cm with batchMode := false } : ConfigRollbackManager).testConfig host = tested
    at htested
  obtain ⟨err, cm'⟩ := tested
  cases err with
  | none => exact ⟨htested.defaultServer, htested.disabled⟩
  | some err =>
    have hloop := isolateLoop_invariant hwritable (P := KeepsDefault cm)
      (fun _ h => h.tracked) (fun _ _ tests h hfiles => h.of_restored tests hfiles)
      (fun _ _ reason hkeeps hbad => hkeeps.excluding h.tracked hbad reason)
      (cm'.batchFiles.size + 10)
      (show cm'.batchFiles.size < cm'.batchFiles.size + 10 by omega) htested
    dsimp only [isolateBadConfigs] at hloop ⊢
    generalize isolateLoop host (cm'.batchFiles.size + 10) (cm'.batchFiles.size + 10) cm' =
      isolated at hloop
    obtain ⟨failure, cm''⟩ := isolated
    obtain ⟨hkeeps, hempty⟩ := hloop
    cases failure with
    | none => exact ⟨hkeeps.defaultServer, hkeeps.disabled⟩
    | some failure =>
      have hfiles := @removeAllBatchFiles_of_empty host _ (hempty (by simp))
      dsimp only at hfiles ⊢
      rw [hfiles]
      exact ⟨hkeeps.defaultServer, hkeeps.disabled⟩

end ConfigRollbackManager

structure BatchWrite where
  isStream : Bool
  name : FileName
  content : String

def BatchWrite.toConfigWrite (w : BatchWrite) : ConfigWrite :=
  if w.isStream then .stream w.name w.content else .http w.name w.content

namespace ConfigRollbackManager

/-- The manager after batch mode is enabled and files are written. -/
def batch (host : Host) (cm : ConfigRollbackManager) (ws : List BatchWrite) :
    ConfigRollbackManager :=
  cm.enableBatchMode.runWrites host (ws.map BatchWrite.toConfigWrite)

/-- What holds between the writes of a batch that began with the files `before`. -/
structure InBatch (before : FileTree) (cm : ConfigRollbackManager) : Prop where
  batchMode : cm.batchMode = true
  tracked : HasTracked cm
  files : ∀ p ∈ before, p ∈ cm.files
  new : ∀ p ∈ cm.files, p ∈ before ∨ isConf p = true
  snapshot : cm.preBatchDefaultServer = before[defaultServerConfFilename]?
  excluded : cm.batchExcluded = []

theorem inBatch_enableBatchMode (cm : ConfigRollbackManager) :
    InBatch cm.files cm.enableBatchMode where
  batchMode := rfl
  tracked := ⟨fun _ hp => absurd hp not_mem_empty,
    fun _ hp => absurd hp not_mem_empty⟩
  files _ hp := hp
  new _ hp := .inl hp
  snapshot := rfl
  excluded := rfl

section

variable {host : Host} {cm : ConfigRollbackManager} {before : FileTree}
  {path : String}

theorem hasTracked_insert (h : HasTracked cm) (name : String) (hpath : isConf path = true)
    {files : FileTree} (hfiles : ∀ p ∈ cm.files, p ∈ files) (hmem : path ∈ files) :
    HasTracked { cm with files := files, batchFiles := cm.batchFiles.insert path name } where
  active p hp := by
    rcases mem_insert.mp hp with heq | hp
    · rwa [← compare_eq_iff_eq.mp heq]
    · exact hfiles p (h.active p hp)
  isConf p hp := by
    rcases mem_insert.mp hp with heq | hp
    · rwa [← compare_eq_iff_eq.mp heq]
    · exact h.isConf p hp

variable (h : InBatch before cm)
include h

theorem InBatch.new_insert (hpath : isConf path = true) (content : String) :
    ∀ p ∈ cm.files.insert path content, p ∈ before ∨ isConf p = true := by
  intro p hp
  rcases mem_insert.mp hp with heq | hp
  · rw [← compare_eq_iff_eq.mp heq]
    exact .inr hpath
  · exact h.new p hp

variable (hwritable : host.IsWritable)
include hwritable

theorem InBatch.batchWriteConfig (hpath : isConf path = true) (name content : String) :
    InBatch before (cm.batchWriteConfig host name path content).2 := by
  unfold ConfigRollbackManager.batchWriteConfig
  split
  · rename_i hsame
    exact ⟨h.batchMode, hasTracked_insert h.tracked name hpath (fun _ hp => hp)
      (mem_iff.mpr ⟨content, hsame⟩), h.files, h.new, h.snapshot, h.excluded⟩
  · rw [createFileAndWrite_of_writable hwritable]
    have hmono : ∀ p ∈ cm.files, p ∈ cm.files.insert path content := fun _ =>
      mem_insert_of_mem path content
    exact ⟨h.batchMode, hasTracked_insert h.tracked name hpath hmono mem_insert_self,
      fun p hp => hmono p (h.files p hp), h.new_insert hpath content, h.snapshot, h.excluded⟩

omit hwritable h in
theorem isConf_append (s : String) : isConf (s ++ ".conf") = true := by
  rw [isConf, hasSuffix, String.toList_append, List.isSuffixOf_iff_suffix]
  exact List.suffix_append _ _

theorem InBatch.write (w : BatchWrite) : InBatch before (w.toConfigWrite.run host cm).2 := by
  unfold BatchWrite.toConfigWrite
  split
  · rw [ConfigWrite.run, createStreamConfig, if_pos h.batchMode]
    exact h.batchWriteConfig hwritable (isConf_append _) _ _
  rw [ConfigWrite.run, createConfig]
  split
  · -- the first write of the default server is not tracked
    unfold createLocalConfig
    rw [createFileAndWrite_of_writable hwritable]
    have hmono : ∀ p ∈ cm.files, p ∈ cm.files.insert (getFilenameForConfig w.name) w.content :=
      fun _ => mem_insert_of_mem _ _
    exact ⟨h.batchMode, ⟨fun p hp => hmono p (h.tracked.active p hp), h.tracked.isConf⟩,
      fun p hp => hmono p (h.files p hp), h.new_insert (isConf_append _) w.content, h.snapshot,
      h.excluded⟩
  · rw [if_pos h.batchMode]
    exact h.batchWriteConfig hwritable (isConf_append _) _ _

theorem InBatch.runWrites (ws : List BatchWrite) :
    InBatch before (cm.runWrites host (ws.map BatchWrite.toConfigWrite)) := by
  induction ws generalizing cm with
  | nil => exact h
  | cons w ws ih =>
    have hwrite := h.write hwritable w
    rw [List.map_cons]
    unfold ConfigRollbackManager.runWrites
    split <;> rename_i heq <;> rw [heq] at hwrite
    · exact hwrite
    · exact ih hwrite

omit h

theorem inBatch_batch (cm : ConfigRollbackManager) (ws : List BatchWrite) :
    InBatch cm.files (cm.batch host ws) :=
  (inBatch_enableBatchMode cm).runWrites hwritable ws

omit hwritable

end

/-- The default server survives a batch, and no tracked file is left disabled that was not disabled
before the batch. -/
theorem default_server_survives (host : Host) (hwritable : host.IsWritable)
    (cm : ConfigRollbackManager) (hdefault : defaultServerConfFilename ∈ cm.files)
    (ws : List BatchWrite) :
    let written := cm.batch host ws
    let completed := (written.completeBatch host).2
    defaultServerConfFilename ∈ completed.files ∧
      ∀ p ∈ written.batchFiles, disabledName p ∈ completed.files → disabledName p ∈ cm.files := by
  have h := inBatch_batch hwritable cm ws
  have hsnapshot : (cm.batch host ws).preBatchDefaultServer.isSome = true := by
    rw [h.snapshot, ← mem_iff_isSome_getElem?]
    exact hdefault
  obtain ⟨hsurvives, hdisabled⟩ := completeBatch_keepsDefault hwritable
    ⟨h.tracked, fun _ hp => hp, h.files _ hdefault, fun _ => hsnapshot, fun _ _ hp => hp⟩
  refine ⟨hsurvives, fun p hp hleft => ?_⟩
  have hconf := not_isConf_disabledName (h.tracked.isConf p hp)
  exact (h.new _ (hdisabled p hp hleft)).resolve_right (by simp [hconf])

/-- An Ingress without a host and a server, on a host whose test always fails. -/
theorem default_server_survives_broken_main :
    let host : Host := { passes := fun _ => false }
    let cm : ConfigRollbackManager := {
      files := ofList [(defaultServerConfFilename, "default")]
      loaded := ∅
      initialDefaultServerPending := false }
    let ws : List BatchWrite := [⟨false, ⟨"_default-server", by decide⟩, "ingress"⟩,
      ⟨false, ⟨"default-cafe", by decide⟩, "cafe"⟩]
    ((cm.batch host ws).completeBatch host).1.isSome = true ∧
      defaultServerConfFilename ∈ ((cm.batch host ws).completeBatch host).2.files := by
  refine ⟨by decide +kernel, ?_⟩
  exact (default_server_survives _ (fun _ _ => rfl) _ (by simp) _).1

end ConfigRollbackManager

end IngressController.Nginx
