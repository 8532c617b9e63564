import IngressController.Nginx.RollbackManager

/-! # Batch mode

At startup the files are written without tests. One test at the end validates the whole tree, and
where it fails the bad files are found by the paths in the errors or by bisection, and excluded.
-/

namespace IngressController.Nginx

open GoString List

def disabledSuffix : String := ".conf.disabled"

def disabledName (path : String) : String := trimSuffix path ".conf" ++ disabledSuffix

def isConf (path : String) : Bool := hasSuffix path ".conf"

theorem disabledName_eq {path : String} (h : isConf path = true) :
    disabledName path = path ++ ".disabled" := by
  have hsplit : disabledSuffix = ".conf" ++ ".disabled" := by decide
  rw [disabledName, hsplit, ← String.append_assoc, trimSuffix_append h]

theorem not_isConf_disabledName {path : String} (h : isConf path = true) :
    isConf (disabledName path) = false := by
  cases hconf : isConf (disabledName path) with
  | false => rfl
  | true =>
    obtain ⟨rest, hrest⟩ := isSuffixOf_iff_suffix.mp hconf
    have hlast := congrArg getLast? hrest
    have hconf : ".conf".toList.getLast? = some 'f' := by decide
    have hdisabled : ".disabled".toList.getLast? = some 'd' := by decide
    rw [disabledName_eq h, String.toList_append, getLast?_append, getLast?_append,
      hconf, hdisabled, Option.some_or, Option.some_or, Option.some.injEq] at hlast
    cases hlast

theorem disabledName_inj {p q : String} (hp : isConf p = true) (hq : isConf q = true)
    (h : disabledName p = disabledName q) : p = q := by
  rw [disabledName_eq hp, disabledName_eq hq] at h
  exact String.append_left_inj _ |>.mp h

/-- NGINX includes `*.conf`, so a disabled file is not read. -/
def disabling : FileTree.Cover where
  IsRead path := isConf path = true
  name := disabledName
  not_read p hp hname := by rw [not_isConf_disabledName hp] at hname; cases hname
  inj _ _ := disabledName_inj

/-- `[^\s:"']` -/
def isPathChar (c : Char) : Bool := !("\t\n\x0c\r :\"'".toList.contains c)

/-- The matches of `/etc/nginx/[^\s:"']+` in a text, the first argument bounding their search. -/
def pathMatches : Nat → List Char → List (List Char)
  | 0, _ => []
  | _, [] => []
  | n + 1, c :: rest =>
    let tail := (c :: rest).drop "/etc/nginx/".length
    if "/etc/nginx/".toList.isPrefixOf (c :: rest) && tail.head?.any isPathChar then
      ("/etc/nginx/".toList ++ tail.takeWhile isPathChar) ::
        pathMatches n (tail.dropWhile isPathChar)
    else pathMatches n rest

/-- The paths a text names, without the punctuation that follows them. -/
def namedPaths (text : String) : List String :=
  (pathMatches text.length text.toList).map fun path => String.ofList (trimRight path ".,;)")

namespace ConfigRollbackManager

variable (host : Host) (cm : ConfigRollbackManager)

def enableBatchMode : ConfigRollbackManager :=
  { cm with
    batchMode := true
    batchFiles := ∅
    batchExcluded := []
    preBatchDefaultServer := cm.files[defaultServerConfFilename]? }

def parsePathFromError (err : String) : Option String :=
  (namedPaths err).find? (· ∈ cm.batchFiles)

def candidatePaths : List String := host.order.visit cm.tests cm.batchFiles.keys

def disableConfigs (paths : List String) : ConfigRollbackManager :=
  { cm with files := paths.foldl disabling.hide cm.files }

def enableConfigs (paths : List String) : ConfigRollbackManager :=
  { cm with files := paths.foldl disabling.restore cm.files }

/-- The half that is not searched stays disabled, so that its bad files do not fail the tests. -/
def searchHalves
    (search : List String → ConfigRollbackManager → Except String String × ConfigRollbackManager)
    (firstHalf secondHalf : List String) : Except String String × ConfigRollbackManager :=
  match (cm.disableConfigs secondHalf).testConfig host with
  | (some _, cm) =>
    let (bad, cm) := search firstHalf cm
    (bad, cm.enableConfigs secondHalf)
  | (none, cm) =>
    let (bad, cm) := search secondHalf ((cm.enableConfigs secondHalf).disableConfigs firstHalf)
    (bad, cm.enableConfigs firstHalf)

/-- The recursion of `binarySearchBadConfig`, with its depth. -/
def searchBadConfig : Nat → List String → ConfigRollbackManager →
    Except String String × ConfigRollbackManager
  | _, [], cm => (.error "empty candidate set", cm)
  | _, [path], cm => (.ok path, cm)
  | 0, _, cm => (.error "empty candidate set", cm)
  | depth + 1, candidates, cm =>
    cm.searchHalves host (searchBadConfig depth) (candidates.take (candidates.length / 2))
      (candidates.drop (candidates.length / 2))

def binarySearchBadConfig (candidates : List String) :
    Except String String × ConfigRollbackManager :=
  searchBadConfig host candidates.length candidates cm

/-- A bad file is removed, except that the default server from before the batch is put back once. -/
def replaceExcluded (configPath : String) : Except String ConfigRollbackManager :=
  match if configPath = defaultServerConfFilename then cm.preBatchDefaultServer else none with
  | some snapshot =>
    match cm.createFileAndWrite host configPath snapshot with
    | some cm => .ok { cm with preBatchDefaultServer := none }
    | none => .error ("failed to restore pre-batch default server config " ++ configPath)
  | none =>
    match cm.files.remove configPath with
    | some files => .ok { cm with files := files }
    | none => .error ("failed to remove excluded config " ++ configPath)

def excludeConfig (configPath resourceName reason : String) :
    Option String × ConfigRollbackManager :=
  match cm.replaceExcluded host configPath with
  | .error err => (some err, cm)
  | .ok cm => (none, { cm with
      batchExcluded := cm.batchExcluded ++ [⟨configPath, resourceName, reason⟩]
      batchFiles := cm.batchFiles.erase configPath })

/-- The file to exclude after a failed test: one that the error names, or else one that bisection
finds. -/
def findBadConfig (testErr : String) : Except String String × ConfigRollbackManager :=
  match cm.parsePathFromError testErr with
  | some badPath => (.ok badPath, cm)
  | none =>
    if cm.candidatePaths host = [] then
      (.error ("no candidates remaining but nginx -t still fails: " ++ testErr), cm)
    else
      match cm.binarySearchBadConfig host (cm.candidatePaths host) with
      | (.ok badFile, cm) => (.ok badFile, cm)
      | (.error err, cm) => (.error ("binary search could not isolate bad config: " ++ err), cm)

/-- The loop of `isolateBadConfigs`, with the iterations left. -/
def isolateLoop (maxIterations : Nat) : Nat → ConfigRollbackManager →
    Option String × ConfigRollbackManager
  | 0, cm =>
    (some ("isolation exceeded iteration cap of " ++ toString maxIterations ++
      " — file system state may be inconsistent"), cm)
  | iterations + 1, cm =>
    match cm.testConfig host with
    | (none, cm) => (none, cm)
    | (some testErr, cm) =>
      match cm.findBadConfig host testErr with
      | (.error err, cm) => (some err, cm)
      | (.ok bad, cm) =>
        match cm.excludeConfig host bad (cm.batchFiles[bad]?.getD "") testErr with
        | (some err, cm) => (some ("isolation aborted, cannot exclude " ++ bad ++ ": " ++ err), cm)
        | (none, cm) => isolateLoop maxIterations iterations cm

def isolateBadConfigs : Option String × ConfigRollbackManager :=
  isolateLoop host (cm.batchFiles.size + 10) (cm.batchFiles.size + 10) cm

def removeAllBatchFiles : ConfigRollbackManager :=
  { cm with
    files := (host.order.visit cm.tests cm.batchFiles.keys).foldl
      (fun files path => (files.remove path).getD files) cm.files
    batchFiles := ∅ }

/-- The error, if the bad files could not be isolated. -/
def completeBatch : Option String × ConfigRollbackManager :=
  match ({ cm with batchMode := false } : ConfigRollbackManager).testConfig host with
  | (none, cm) => (none, { cm with batchFiles := ∅ })
  | (some _, cm) =>
    match cm.isolateBadConfigs host with
    | (none, cm) => (none, { cm with batchFiles := ∅ })
    | (some err, cm) =>
      (some ("batch validation failed and isolation could not converge: " ++ err),
        cm.removeAllBatchFiles host)

variable {host cm}

/-- Of the candidates exactly the given ones are left in `t'`. -/
structure ActiveOnly (candidates left : List String) (t t' : FileTree) : Prop where
  kept : ∀ p ∈ left, t'[p]? = t[p]?
  gone : ∀ p ∈ candidates, p ∉ left → t'[p]? = none
  others : ∀ q, q ∉ candidates → (∀ p ∈ candidates, disabledName p ≠ q) → t'[q]? = t[q]?

/-- The test fails exactly if a bad candidate is left. -/
def TellsBad (host : Host) (isBad : String → Prop) (candidates : List String) (t : FileTree) :
    Prop :=
  ∀ left t', (∀ p ∈ left, p ∈ candidates) → ActiveOnly candidates left t t' →
    (host.passes t' = false ↔ ∃ p ∈ left, isBad p)

theorem disabledName_ne {p q : String} (hp : isConf p = true) (hq : isConf q = true) :
    disabledName p ≠ q := by
  intro heq
  have hconf := not_isConf_disabledName hp
  rw [heq, hq] at hconf
  cases hconf

section

variable {isBad : String → Prop} {ps qs candidates left : List String} {t t' t'' : FileTree}

theorem activeOnly_of_hidden (h : disabling.Hidden qs t t')
    (hcands : ∀ p, p ∈ candidates ↔ p ∈ ps ∨ p ∈ qs) (hdisjoint : ∀ p ∈ ps, p ∉ qs)
    (hread : ∀ p ∈ candidates, isConf p = true) : ActiveOnly candidates ps t t' where
  kept p hp := h.others p (hdisjoint p hp) fun q hq =>
    disabledName_ne (hread q ((hcands q).mpr (.inr hq))) (hread p ((hcands p).mpr (.inl hp)))
  gone p hp hnot := h.gone p (((hcands p).mp hp).resolve_left hnot)
  others q hq hnames := h.others q (fun hin => hq ((hcands q).mpr (.inr hin)))
    fun p hp => hnames p ((hcands p).mpr (.inr hp))

theorem ActiveOnly.trans (h' : ActiveOnly ps left t' t'') (h : ActiveOnly candidates ps t t')
    (hps : ∀ p ∈ ps, p ∈ candidates) (hleft : ∀ p ∈ left, p ∈ ps)
    (hread : ∀ p ∈ candidates, isConf p = true) : ActiveOnly candidates left t t'' where
  kept p hp := by rw [h'.kept p hp, h.kept p (hleft p hp)]
  gone p hp hnot := by
    by_cases hin : p ∈ ps
    · exact h'.gone p hin hnot
    · rw [h'.others p hin fun q hq => disabledName_ne (hread q (hps q hq)) (hread p hp),
        h.gone p hp hin]
  others q hq hnames := by
    rw [h'.others q (fun hin => hq (hps q hin)) fun p hp => hnames p (hps p hp),
      h.others q hq hnames]

theorem ActiveOnly.of_restored (h' : ActiveOnly candidates left t' t'')
    (h : disabling.Restored candidates t t') (hleft : ∀ p ∈ left, p ∈ candidates)
    (hread : ∀ p ∈ candidates, isConf p = true) : ActiveOnly candidates left t t'' where
  kept p hp := by rw [h'.kept p hp, h.get_of_read hread (hread p (hleft p hp))]
  gone := h'.gone
  others q hq hnames := by rw [h'.others q hq hnames, h.others q hnames]

/-- The candidates that are left tell the bad ones among them. -/
theorem TellsBad.of_activeOnly (h : TellsBad host isBad candidates t)
    (hactive : ActiveOnly candidates ps t t') (hps : ∀ p ∈ ps, p ∈ candidates)
    (hread : ∀ p ∈ candidates, isConf p = true) : TellsBad host isBad ps t' :=
  fun left t'' hleft honly =>
    h left t'' (fun p hp => hps p (hleft p hp)) (honly.trans hactive hps hleft hread)

theorem TellsBad.congr (h : TellsBad host isBad ps t) (hmem : ∀ p, p ∈ ps ↔ p ∈ qs) :
    TellsBad host isBad qs t := by
  intro left t' hleft honly
  refine h left t' (fun p hp => (hmem p).mpr (hleft p hp)) ⟨honly.kept, ?_, ?_⟩
  · exact fun p hp => honly.gone p ((hmem p).mp hp)
  · exact fun q hq hnames => honly.others q (fun hin => hq ((hmem q).mpr hin))
      fun p hp => hnames p ((hmem p).mpr hp)

theorem TellsBad.of_restored (h : TellsBad host isBad candidates t)
    (hrestored : disabling.Restored candidates t t')
    (hread : ∀ p ∈ candidates, isConf p = true) : TellsBad host isBad candidates t' :=
  fun left t'' hleft honly =>
    h left t'' hleft (honly.of_restored hrestored hleft hread)

end

theorem disableConfigs_update (files : FileTree) (tests : Nat) (ps : List String) :
    (cm.update files tests).disableConfigs ps = cm.update (ps.foldl disabling.hide files) tests :=
  rfl

theorem enableConfigs_update (files : FileTree) (tests : Nat) (ps : List String) :
    (cm.update files tests).enableConfigs ps = cm.update (ps.foldl disabling.restore files) tests :=
  rfl

/-- What a search of candidates gives, in a tree that has them. -/
def Searches (host : Host) (cm : ConfigRollbackManager) (isBad : String → Prop)
    (search : List String → ConfigRollbackManager → Except String String × ConfigRollbackManager)
    (candidates : List String) : Prop :=
  ∀ files tests, (∀ p ∈ candidates, p ∈ files) →
    ∃ bad ∈ candidates, ∃ files' tests',
      search candidates (cm.update files tests) = (.ok bad, cm.update files' tests') ∧
      disabling.Restored candidates files files' ∧
      (TellsBad host isBad candidates files → (∃ p ∈ candidates, isBad p) → isBad bad)

theorem searches_halves {isBad : String → Prop}
    {search : List String → ConfigRollbackManager → Except String String × ConfigRollbackManager}
    {first second : List String} (hfirst : Searches host cm isBad search first)
    (hsecond : Searches host cm isBad search second) (hnodup : (first ++ second).Nodup)
    (hread : ∀ p ∈ first ++ second, isConf p = true) {files : FileTree} (tests : Nat)
    (hmem : ∀ p ∈ first ++ second, p ∈ files) :
    ∃ bad ∈ first ++ second, ∃ files' tests',
      (cm.update files tests).searchHalves host search first second =
        (.ok bad, cm.update files' tests') ∧
      disabling.Restored (first ++ second) files files' ∧
      (TellsBad host isBad (first ++ second) files → (∃ p ∈ first ++ second, isBad p) →
        isBad bad) := by
  obtain ⟨hnodup₁, hnodup₂, hdisjoint⟩ := nodup_append.mp hnodup
  have hin₁ : ∀ p ∈ first, p ∈ first ++ second := fun p hp => mem_append_left _ hp
  have hin₂ : ∀ p ∈ second, p ∈ first ++ second := fun p hp => mem_append_right _ hp
  have hnot₁ : ∀ p ∈ first, p ∉ second := fun p hp hin => hdisjoint p hp p hin rfl
  have hnot₂ : ∀ p ∈ second, p ∉ first := fun p hp hin => hdisjoint p hin p hp rfl
  have hread₁ : ∀ p ∈ first, isConf p = true := fun p hp => hread p (hin₁ p hp)
  have hread₂ : ∀ p ∈ second, isConf p = true := fun p hp => hread p (hin₂ p hp)
  have hmem₁ : ∀ p ∈ first, p ∈ files := fun p hp => hmem p (hin₁ p hp)
  have hmem₂ : ∀ p ∈ second, p ∈ files := fun p hp => hmem p (hin₂ p hp)
  -- the second half is disabled for the test of the first one
  have hhidden : disabling.Hidden second files (second.foldl disabling.hide files) :=
    FileTree.Cover.hidden_foldl_hide hnodup₂ hread₂ hmem₂
  have hactive : ActiveOnly (first ++ second) first files (second.foldl disabling.hide files) :=
    activeOnly_of_hidden hhidden (fun p => mem_append) hnot₁ hread
  generalize hhide : second.foldl disabling.hide files = hidden at hhidden hactive
  unfold searchHalves
  rw [disableConfigs_update, hhide]
  cases hpasses : host.passes hidden with
  | false =>
    have htest : (cm.update hidden tests).testConfig host = _ := testConfig_of_fails hpasses
    obtain ⟨bad, hbad, files', tests', hsearch, hrestored, htells⟩ :=
      hfirst hidden (tests + 1) fun p hp => FileTree.mem_of_get_eq (hactive.kept p hp) (hmem₁ p hp)
    refine ⟨bad, hin₁ bad hbad, second.foldl disabling.restore files', tests', ?_, ?_, ?_⟩
    · rw [htest]
      simp only [files_update, tests_update, update_update, hsearch, enableConfigs_update]
    · exact hhidden.restored_after hrestored hnodup₂ hread₂ hread₁ hnot₂ hmem₂
        fun p hp => mem_append.mpr hp.symm
    · intro htellsAll _
      exact htells (htellsAll.of_activeOnly hactive hin₁ hread)
        ((htellsAll first hidden hin₁ hactive).mp hpasses)
  | true =>
    have htest : (cm.update hidden tests).testConfig host = _ := testConfig_of_passes hpasses
    -- the second half is enabled again, and the first one disabled
    have hback : disabling.Restored second files (second.foldl disabling.restore hidden) :=
      hhidden.restored_foldl_restore hnodup₂ hread₂ hmem₂
    generalize hrestore : second.foldl disabling.restore hidden = back at hback
    have hbackAll : disabling.Restored (first ++ second) files back := hback.mono hin₂
    have hmemBack : ∀ p ∈ first ++ second, p ∈ back := fun p hp =>
      FileTree.mem_of_get_eq (hback.get_of_read hread₂ (hread p hp)) (hmem p hp)
    have hhidden₁ : disabling.Hidden first back (first.foldl disabling.hide back) :=
      FileTree.Cover.hidden_foldl_hide hnodup₁ hread₁ fun p hp => hmemBack p (hin₁ p hp)
    have hactive₁ : ActiveOnly (first ++ second) second back (first.foldl disabling.hide back) :=
      activeOnly_of_hidden hhidden₁ (fun p => mem_append.trans or_comm) hnot₂ hread
    generalize hhide₁ : first.foldl disabling.hide back = hidden₁ at hhidden₁ hactive₁
    obtain ⟨bad, hbad, files', tests', hsearch, hrestored, htells⟩ :=
      hsecond hidden₁ (tests + 1) fun p hp =>
        FileTree.mem_of_get_eq (hactive₁.kept p hp) (hmemBack p (hin₂ p hp))
    refine ⟨bad, hin₂ bad hbad, first.foldl disabling.restore files', tests', ?_, ?_, ?_⟩
    · rw [htest]
      simp [files_update, tests_update, update_update, enableConfigs_update, disableConfigs_update,
        hrestore, hhide₁, hsearch]
    · exact hbackAll.trans (hhidden₁.restored_after hrestored hnodup₁ hread₁ hread₂ hnot₁
        (fun p hp => hmemBack p (hin₁ p hp)) fun p hp => mem_append.mpr hp)
    rintro htellsAll ⟨p, hp, hpBad⟩
    refine htells ((htellsAll.of_restored hbackAll hread).of_activeOnly hactive₁ hin₂ hread) ?_
    refine ⟨p, (mem_append.mp hp).resolve_left fun hpFirst => ?_, hpBad⟩
    have hfails := (htellsAll first hidden hin₁ hactive).mpr ⟨p, hpFirst, hpBad⟩
    rw [hpasses] at hfails
    cases hfails

/-- Bisection finds a candidate, a bad one if the test tells the bad ones, and leaves nothing
disabled. -/
theorem searches_searchBadConfig (isBad : String → Prop) {depth : Nat} {candidates : List String}
    (hdepth : candidates.length ≤ depth) (hne : candidates ≠ []) (hnodup : candidates.Nodup)
    (hread : ∀ p ∈ candidates, isConf p = true) :
    Searches host cm isBad (searchBadConfig host depth) candidates := by
  induction depth generalizing candidates with
  | zero => exact absurd (length_eq_zero_iff.mp (Nat.le_zero.mp hdepth)) hne
  | succ depth ih =>
    intro files tests hmem
    match candidates, hne with
    | [path], _ =>
      refine ⟨path, mem_singleton_self path, files, tests, rfl,
        FileTree.Cover.Restored.refl _ _, fun _ hbad => ?_⟩
      obtain ⟨p, hp, hbad⟩ := hbad
      rwa [← mem_singleton.mp hp]
    | p₀ :: p₁ :: rest, _ =>
      have heq : searchBadConfig host (depth + 1) (p₀ :: p₁ :: rest) (cm.update files tests) =
          (cm.update files tests).searchHalves host (searchBadConfig host depth)
            ((p₀ :: p₁ :: rest).take ((p₀ :: p₁ :: rest).length / 2))
            ((p₀ :: p₁ :: rest).drop ((p₀ :: p₁ :: rest).length / 2)) := rfl
      have hlength : 2 ≤ (p₀ :: p₁ :: rest).length := Nat.le_add_left 2 rest.length
      rw [heq]
      -- both halves are shorter, and not empty
      generalize p₀ :: p₁ :: rest = candidates at *
      have happend := take_append_drop (candidates.length / 2) candidates
      have hfirst : (candidates.take (candidates.length / 2)).length =
        min (candidates.length / 2) candidates.length := length_take
      have hsecond : (candidates.drop (candidates.length / 2)).length =
        candidates.length - candidates.length / 2 := length_drop
      generalize candidates.take (candidates.length / 2) = first at *
      generalize candidates.drop (candidates.length / 2) = second at *
      subst happend
      obtain ⟨hnodup₁, hnodup₂, -⟩ := nodup_append.mp hnodup
      refine searches_halves (ih ?_ ?_ hnodup₁ fun p hp => hread p (mem_append_left _ hp))
        (ih ?_ ?_ hnodup₂ fun p hp => hread p (mem_append_right _ hp)) hnodup hread tests
        hmem
      · omega
      · exact ne_nil_of_length_pos (by omega)
      · omega
      · exact ne_nil_of_length_pos (by omega)

end ConfigRollbackManager

end IngressController.Nginx
