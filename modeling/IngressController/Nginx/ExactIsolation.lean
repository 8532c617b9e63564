import IngressController.Nginx.BatchIsolation

/-! # Exact isolation

Where the test fails only for files that are invalid by themselves, and the errors name such files,
a batch excludes exactly its invalid files.
-/

namespace IngressController.Nginx

open List Std.ExtTreeMap

namespace ConfigRollbackManager

/-- The test accepts a tree exactly if its other files are sound and every file of the batch is
valid. An error that names a file of the batch, as it was written, names an invalid one first. -/
structure TestsSeparately (host : Host) (cm : ConfigRollbackManager) (sound : FileTree → Prop)
    (valid : String → String → Prop) : Prop where
  passes_iff : ∀ files, host.passes files = true ↔
    sound files ∧ ∀ p ∈ cm.batchFiles, ∀ content, files[p]? = some content → valid p content
  sound_congr : ∀ files files' : FileTree, (∀ q, q ∉ cm.batchFiles →
    (∀ p ∈ cm.batchFiles, disabledName p ≠ q) → files[q]? = files'[q]?) → sound files → sound files'
  names_invalid : ∀ (test : Nat) (files : FileTree) p, host.passes files = false →
    (namedPaths (host.errorText test files)).find?
      (fun q => q ∈ cm.batchFiles ∧ files[q]? = cm.files[q]?) = some p →
    ∀ content, files[p]? = some content → ¬ valid p content

def IsInvalid (cm : ConfigRollbackManager) (valid : String → String → Prop)
    (path : String) : Prop :=
  path ∈ cm.batchFiles ∧ ∃ content, cm.files[path]? = some content ∧ ¬ valid path content

def excludedPaths (cm : ConfigRollbackManager) : List String :=
  cm.batchExcluded.map BatchExclusion.configPath

/-- The state between two iterations: invalid files were excluded, and the others are as they
were. -/
structure Isolated (before : ConfigRollbackManager) (valid : String → String → Prop)
    (cm : ConfigRollbackManager) : Prop where
  tracked : HasTracked cm
  batchFiles : ∀ p, p ∈ cm.batchFiles ↔ p ∈ before.batchFiles ∧ p ∉ cm.excludedPaths
  nodup : cm.excludedPaths.Nodup
  invalid : ∀ p ∈ cm.excludedPaths, IsInvalid before valid p
  kept : ∀ q, q ∉ cm.excludedPaths → (∀ p ∈ before.batchFiles, disabledName p ≠ q) →
    cm.files[q]? = before.files[q]?
  replaced : ∀ p ∈ cm.excludedPaths, ∀ content, cm.files[p]? = some content → valid p content
  snapshot : ∀ content, cm.preBatchDefaultServer = some content →
    valid defaultServerConfFilename content
  disabled : NoNewDisabled before cm.files

variable {host : Host} {before cm : ConfigRollbackManager} {sound : FileTree → Prop}
  {valid : String → String → Prop}

theorem Isolated.get_tracked (h : Isolated before valid cm) (hbefore : HasTracked before)
    {p : String} (hp : p ∈ cm.batchFiles) : cm.files[p]? = before.files[p]? := by
  obtain ⟨hin, hnot⟩ := (h.batchFiles p).mp hp
  exact h.kept p hnot fun q hq => disabledName_ne (hbefore.isConf q hq) (hbefore.isConf p hin)

theorem Isolated.tellsBad (h : Isolated before valid cm) (hbefore : HasTracked before)
    (htests : TestsSeparately host before sound valid) (hsound : sound before.files) :
    TellsBad host (IsInvalid before valid) cm.batchFiles.keys cm.files := by
  intro left files hleft honly
  have hkeys : ∀ p, p ∈ cm.batchFiles.keys ↔ p ∈ cm.batchFiles := fun p =>
    mem_keys
  have hsoundFiles : sound files := by
    refine htests.sound_congr before.files files (fun q hq hnames => ?_) hsound
    have hcurrent : q ∉ cm.batchFiles := fun hin => hq ((h.batchFiles q).mp hin).1
    rw [honly.others q (fun hin => hcurrent ((hkeys q).mp hin)) fun p hp =>
      hnames p ((h.batchFiles p).mp ((hkeys p).mp hp)).1]
    exact (h.kept q (fun hin => hq (h.invalid q hin).1) hnames).symm
  rw [← Bool.not_eq_true, htests.passes_iff]
  constructor
  · intro hfails
    by_contra hnone
    refine hfails ⟨hsoundFiles, fun p hp content hcontent => ?_⟩
    by_cases hexcluded : p ∈ cm.excludedPaths
    · -- an excluded file is gone, or what replaces it is valid
      refine h.replaced p hexcluded content ?_
      rw [← hcontent]
      refine (honly.others p ?_ ?_).symm
      · exact fun hin => ((h.batchFiles p).mp ((hkeys p).mp hin)).2 hexcluded
      · exact fun q hq => disabledName_ne (h.tracked.isConf q ((hkeys q).mp hq))
          (hbefore.isConf p hp)
    · have hp' : p ∈ cm.batchFiles := (h.batchFiles p).mpr ⟨hp, hexcluded⟩
      by_cases hin : p ∈ left
      · rw [honly.kept p hin, h.get_tracked hbefore hp'] at hcontent
        by_contra hinvalid
        exact hnone ⟨p, hin, hp, content, hcontent, hinvalid⟩
      · rw [honly.gone p ((hkeys p).mpr hp') hin] at hcontent
        cases hcontent
  · rintro ⟨p, hp, hin, content, hcontent, hinvalid⟩ ⟨-, hvalid⟩
    refine hinvalid (hvalid p hin content ?_)
    rw [honly.kept p hp, h.get_tracked hbefore ((hkeys p).mp (hleft p hp)), hcontent]

theorem Isolated.names_invalid (h : Isolated before valid cm) (hbefore : HasTracked before)
    (htests : TestsSeparately host before sound valid) (hfails : host.passes cm.files = false)
    {test : Nat} {p : String}
    (hp : cm.parsePathFromError (host.errorText test cm.files) = some p) :
    IsInvalid before valid p := by
  have htracked : ∀ q, q ∈ cm.batchFiles ↔
      q ∈ before.batchFiles ∧ cm.files[q]? = before.files[q]? := by
    intro q
    constructor
    · exact fun hq => ⟨((h.batchFiles q).mp hq).1, h.get_tracked hbefore hq⟩
    · rintro ⟨hq, heq⟩
      refine (h.batchFiles q).mpr ⟨hq, fun hexcluded => ?_⟩
      obtain ⟨-, content, hcontent, hinvalid⟩ := h.invalid q hexcluded
      exact hinvalid (h.replaced q hexcluded content (heq.trans hcontent))
  have hmem : p ∈ cm.batchFiles := by simpa using find?_some hp
  obtain ⟨content, hcontent⟩ := FileTree.mem_iff.mp (h.tracked.active p hmem)
  refine ⟨((h.batchFiles p).mp hmem).1, content, ?_, ?_⟩
  · rw [← h.get_tracked hbefore hmem, hcontent]
  · refine htests.names_invalid test cm.files p hfails ?_ content hcontent
    simpa only [parsePathFromError, htracked] using hp

theorem Isolated.of_restored (h : Isolated before valid cm) (hbefore : HasTracked before)
    {files : FileTree} (hrestored : disabling.Restored cm.batchFiles.keys cm.files files)
    (tests : Nat) : Isolated before valid (cm.update files tests) := by
  have hread : ∀ p ∈ cm.batchFiles.keys, isConf p = true := fun p hp =>
    h.tracked.isConf p (mem_keys.mp hp)
  refine ⟨h.tracked.of_restored hrestored tests, h.batchFiles, h.nodup, h.invalid, ?_, ?_,
    h.snapshot, h.disabled.of_restored hrestored⟩
  · intro q hq hnames
    rw [← h.kept q hq hnames]
    exact hrestored.others q fun p hp =>
      hnames p ((h.batchFiles p).mp (mem_keys.mp hp)).1
  · intro p hp content hcontent
    refine h.replaced p hp content ?_
    rw [← hcontent]
    exact (hrestored.get_of_read hread (hbefore.isConf p (h.invalid p hp).1)).symm

theorem excludedPaths_excluding (cm : ConfigRollbackManager) (bad reason : String) :
    (cm.excluding bad reason).excludedPaths = cm.excludedPaths ++ [bad] := by
  simp [excludedPaths, excluding]

theorem Isolated.excluding (h : Isolated before valid cm) (hbefore : HasTracked before)
    {bad : String} (hbad : bad ∈ cm.batchFiles) (hinvalid : IsInvalid before valid bad)
    (reason : String) : Isolated before valid (cm.excluding bad reason) := by
  have hpaths := cm.excludedPaths_excluding bad reason
  have hmem : ∀ p, p ∈ (cm.excluding bad reason).excludedPaths ↔
      p ∈ cm.excludedPaths ∨ p = bad := by
    intro p
    rw [hpaths, mem_append, mem_singleton]
  have hnot : bad ∉ cm.excludedPaths := ((h.batchFiles bad).mp hbad).2
  refine ⟨h.tracked.excluding bad reason, ?_, ?_, ?_, ?_, ?_, ?_,
    h.disabled.excludedFiles hbefore (h.tracked.isConf bad hbad)⟩
  · intro p
    rw [mem_batchFiles_excluding, h.batchFiles, hmem]
    tauto
  · rw [hpaths, nodup_append]
    refine ⟨h.nodup, by simp, fun p hp q hq heq => hnot ?_⟩
    rwa [← mem_singleton.mp hq, ← heq]
  · intro p hp
    rcases (hmem p).mp hp with hp | rfl
    · exact h.invalid p hp
    · exact hinvalid
  · intro q hq hnames
    obtain ⟨hq, hne⟩ := not_or.mp (mt (hmem q).mpr hq)
    rw [← h.kept q hq hnames]
    exact get_excludedFiles_of_ne (Ne.symm hne)
  · intro p hp content hcontent
    change (cm.excludedFiles bad).1[p]? = some content at hcontent
    rcases (hmem p).mp hp with hp | rfl
    · have hne : bad ≠ p := fun heq => hnot (heq ▸ hp)
      rw [get_excludedFiles_of_ne hne] at hcontent
      exact h.replaced p hp content hcontent
    · rcases cm.excludedFiles_cases p with ⟨rfl, snapshot, hsnapshot, heq⟩ | ⟨-, heq⟩
      · rw [heq, Table.get_insert, if_pos rfl] at hcontent
        exact h.snapshot content (hsnapshot.trans hcontent)
      · rw [heq, Table.get_erase, if_pos rfl] at hcontent
        cases hcontent
  · intro content hcontent
    change (cm.excludedFiles bad).2 = some content at hcontent
    rcases cm.excludedFiles_cases bad with ⟨-, snapshot, -, heq⟩ | ⟨-, heq⟩
    · rw [heq] at hcontent
      cases hcontent
    · rw [heq] at hcontent
      exact h.snapshot content hcontent

/-- The loop ends without an error, on a tree that passes. -/
theorem Isolated.isolateLoop (hwritable : host.IsWritable) (hbefore : HasTracked before)
    (htests : TestsSeparately host before sound valid) (hsound : sound before.files)
    (maxIterations : Nat) {iterations : Nat} (hiterations : cm.batchFiles.size < iterations)
    (h : Isolated before valid cm) :
    ∃ cm', ConfigRollbackManager.isolateLoop host maxIterations iterations cm = (none, cm') ∧
      Isolated before valid cm' ∧ host.passes cm'.files = true := by
  induction iterations generalizing cm with
  | zero => exact absurd hiterations (Nat.not_lt_zero _)
  | succ iterations ih =>
    have htells := h.tellsBad hbefore htests hsound
    -- a test that fails has an invalid file among the tracked ones
    have hinvalid : host.passes cm.files = false →
        ∃ p ∈ cm.batchFiles, IsInvalid before valid p := by
      intro hfails
      have hall : ActiveOnly cm.batchFiles.keys cm.batchFiles.keys cm.files cm.files :=
        ⟨fun _ _ => rfl, fun p hp hnot => absurd hp hnot, fun _ _ _ => rfl⟩
      obtain ⟨p, hp, hbad⟩ := (htells _ cm.files (fun _ hp => hp) hall).mp hfails
      exact ⟨p, mem_keys.mp hp, hbad⟩
    rcases isolateLoop_succ hwritable h.tracked (IsInvalid before valid) maxIterations iterations
      with ⟨hpasses, heq⟩ | ⟨hfails, hnone, -⟩ |
        ⟨hfails, bad, hbad, files, tests, hfiles, heq, hfinds⟩
    · exact ⟨_, heq, h.of_restored hbefore (FileTree.Cover.Restored.refl _ _) _, hpasses⟩
    · obtain ⟨p, hp, -⟩ := hinvalid hfails
      exact absurd hp (hnone p)
    have hfound := hfinds (fun p hp => h.names_invalid hbefore htests hfails hp) htells
      (hinvalid hfails)
    have hnext := (h.of_restored hbefore hfiles tests).excluding hbefore hbad hfound
      (host.errorText cm.tests cm.files)
    obtain ⟨cm', hloop, hcm'⟩ := ih (size_erase_lt hbad hiterations) hnext
    exact ⟨cm', heq.trans hloop, hcm'⟩

/-- Exactly the invalid files are excluded, and the valid ones are as they were. -/
structure IsExact (before : ConfigRollbackManager) (valid : String → String → Prop)
    (result : Option String × ConfigRollbackManager) : Prop where
  succeeds : result.1 = none
  nodup : result.2.excludedPaths.Nodup
  excluded : ∀ p, p ∈ result.2.excludedPaths ↔ IsInvalid before valid p
  active : ∀ p ∈ before.batchFiles, ∀ content, before.files[p]? = some content → valid p content →
    result.2.files[p]? = some content
  disabled : NoNewDisabled before result.2.files

theorem Isolated.isExact (h : Isolated before valid cm) (hbefore : HasTracked before)
    (htests : TestsSeparately host before sound valid) (hpasses : host.passes cm.files = true) :
    IsExact before valid (none, { cm with batchFiles := ∅ }) := by
  have hvalid : ∀ p, IsInvalid before valid p → p ∈ cm.excludedPaths := by
    rintro p ⟨hp, content, hcontent, hinvalid⟩
    by_contra hnot
    have htracked : p ∈ cm.batchFiles := (h.batchFiles p).mpr ⟨hp, hnot⟩
    refine hinvalid (((htests.passes_iff _).mp hpasses).2 p hp content ?_)
    rw [h.get_tracked hbefore htracked, hcontent]
  refine ⟨rfl, h.nodup, fun p => ⟨h.invalid p, hvalid p⟩, ?_, h.disabled⟩
  intro p hp content hcontent hok
  have hnot : p ∉ cm.excludedPaths := by
    intro hexcluded
    obtain ⟨-, content', hcontent', hinvalid⟩ := h.invalid p hexcluded
    rw [hcontent] at hcontent'
    cases hcontent'
    exact hinvalid hok
  change cm.files[p]? = some content
  rw [h.get_tracked hbefore ((h.batchFiles p).mpr ⟨hp, hnot⟩), hcontent]

/-- A batch of files that are valid or not by themselves is isolated exactly. -/
theorem completeBatch_isExact (host : Host) (hwritable : host.IsWritable)
    (cm : ConfigRollbackManager) (ws : List BatchWrite) (sound : FileTree → Prop)
    (valid : String → String → Prop)
    (htests : TestsSeparately host (cm.batch host ws) sound valid)
    (hsound : sound (cm.batch host ws).files)
    (hsnapshot : ∀ content, cm.files[defaultServerConfFilename]? = some content →
      valid defaultServerConfFilename content) :
    IsExact (cm.batch host ws) valid ((cm.batch host ws).completeBatch host) := by
  have hbatch := inBatch_batch hwritable cm ws
  have htracked := hbatch.tracked
  rw [← hbatch.snapshot] at hsnapshot
  have hexcluded := hbatch.excluded
  generalize cm.batch host ws = before at *
  -- nothing is excluded before the first iteration
  have hstart : Isolated before valid
      (({ before with batchMode := false } : ConfigRollbackManager).testConfig host).2 := by
    have hpaths : (({ before with batchMode := false } :
        ConfigRollbackManager).testConfig host).2.excludedPaths = [] :=
      congrArg (map BatchExclusion.configPath) hexcluded
    refine ⟨⟨htracked.active, htracked.isConf⟩, ?_, ?_, ?_, fun _ _ _ => rfl, ?_, hsnapshot,
      fun _ _ hdisabled => hdisabled⟩
    · intro p
      rw [hpaths]
      exact ⟨fun hp => ⟨hp, not_mem_nil⟩, fun hp => hp.1⟩
    all_goals simp [hpaths]
  unfold completeBatch
  cases hpasses : host.passes before.files with
  | true =>
    have htest : ({ before with batchMode := false } : ConfigRollbackManager).testConfig host = _ :=
      testConfig_of_passes hpasses
    rw [htest] at hstart ⊢
    exact hstart.isExact htracked htests hpasses
  | false =>
    have htest : ({ before with batchMode := false } : ConfigRollbackManager).testConfig host = _ :=
      testConfig_of_fails hpasses
    rw [htest] at hstart ⊢
    dsimp only [isolateBadConfigs]
    obtain ⟨isolated, hloop, hisolated, hpasses'⟩ := hstart.isolateLoop hwritable htracked htests
      hsound _ (Nat.lt_add_of_pos_right (by decide : 0 < 10))
    rw [hloop]
    exact hisolated.isExact htracked htests hpasses'

def teaAndCoffee : List BatchWrite :=
  [⟨false, ⟨"tea", by decide⟩, "bad"⟩, ⟨false, ⟨"coffee", by decide⟩, "coffee"⟩]

def bootstrapped : ConfigRollbackManager where
  files := ofList [(defaultServerConfFilename, "default")]
  loaded := ∅
  initialDefaultServerPending := false

theorem completeBatch_isExact_teaAndCoffee :
    let host := Host.rejecting "/etc/nginx/conf.d/tea.conf" "bad"
    let before := bootstrapped.batch host teaAndCoffee
    IsExact before (fun path content => path ≠ "/etc/nginx/conf.d/tea.conf" ∨ content ≠ "bad")
      (before.completeBatch host) := by
  have htea : "/etc/nginx/conf.d/tea.conf" ∈
      (bootstrapped.batch (.rejecting "/etc/nginx/conf.d/tea.conf" "bad")
        teaAndCoffee).batchFiles := by
    decide +kernel
  refine completeBatch_isExact _ (fun _ _ => rfl) bootstrapped teaAndCoffee (fun _ => True) _
    ⟨fun files => ?_, fun _ _ _ h => h, fun test files p _ hp => ?_⟩ trivial (fun content _ => ?_)
  · simp only [Host.rejecting, ne_eq, decide_eq_true_eq, true_and]
    constructor
    · intro hne p _ content hcontent
      by_cases hp : p = "/etc/nginx/conf.d/tea.conf"
      · subst hp
        exact .inr fun heq => hne (heq ▸ hcontent)
      · exact .inl hp
    · intro hvalid hbad
      rcases hvalid _ htea "bad" hbad with hne | hne <;> exact hne rfl
  · cases hp
  · exact .inl (by decide)

end ConfigRollbackManager

end IngressController.Nginx
