import IngressController.Configuration.CurrentTables
import IngressController.Configuration.MinionScan
import IngressController.Library.ContestedPlace

/-! # The paths of a master

Seen from one path, sharing the paths out among the minions of a host is a contest for one
place, in which a minion claims as often as it lists the path.
-/

namespace IngressController

open List Option Table
open ContestedPlace (run told_run holder_run)
open ContestedPlace (State)

namespace Configuration

def pathTaken (path : String) : String := "path " ++ path ++ " is taken by another resource"

theorem pathTaken_inj {p q : String} : pathTaken p = pathTaken q ↔ p = q := by
  unfold pathTaken
  rw [String.ext_iff, String.ext_iff]
  simp

/-- The claims to a path: a minion claims it as often as it lists it. -/
def pathClaims (path : String) (ings : List Ingress) : List Ingress :=
  ings.flatMap fun ing => replicate ((minionPaths ing).count path) ing

namespace MinionBuild

/-- The path is valid in the minion of the key. -/
def isValid (b : MinionBuild) (key path : String) : Bool :=
  (b.minions[key]?.bind fun m => m.validPaths[path]?) = some true

/-- How often the minion of the key is told that the path is taken. -/
def told (b : MinionBuild) (key path : String) : ℕ :=
  ((b.childWarnings[key]?).getD []).count (pathTaken path)

section Fields

variable (b : MinionBuild) (k p key path : String)

theorem isValid_setValid (valid : Bool) :
    (b.setValid key path valid).isValid k p =
      if k = key ∧ p = path then valid && (b.minions[key]?).isSome else b.isValid k p := by
  unfold isValid setValid
  rw [get_modify]
  by_cases hk : k = key
  · subst hk
    cases b.minions[k]? with
    | none => simp
    | some m =>
      by_cases hp : p = path
      · simp [hp]
      · simp [hp, Ne.symm hp]
  · simp [hk, Ne.symm hk]

theorem told_warn :
    (b.warn key path).told k p = if k = key ∧ p = path then b.told k p + 1 else b.told k p := by
  have hwarning : "path " ++ path ++ " is taken by another resource" = pathTaken path := rfl
  unfold told warn
  simp only [hwarning]
  rw [get_insert]
  by_cases hk : k = key
  · subst hk
    rw [if_pos rfl, getD_some, count_append, count_singleton]
    by_cases hp : p = path
    · simp [hp]
    · simp [hp, pathTaken_inj, Ne.symm hp]
  · simp [hk, Ne.symm hk]

end Fields

end MinionBuild

open MinionBuild

def minionAge (ing : Ingress) : ℤ ×ₗ Stringᵒᵈ := ing.objectMeta.age

/-- What a build says about one path. -/
structure SeenFrom (path : String) (ings : List Ingress) (b : MinionBuild)
    (s : State Ingress) : Prop where
  entered : ∀ ing ∈ ings, b.minions[objectKey ing]?.map MinionConfiguration.ingress = some ing
  holder : b.paths[path]? = s.holder.map objectKey
  known : ∀ ing, s.holder = some ing → ing ∈ ings
  valid : ∀ ing ∈ ings, b.isValid (objectKey ing) path = s.marked ing
  told : ∀ ing ∈ ings, b.told (objectKey ing) path = s.told ing
  /-- Nobody is marked or told before it entered. -/
  outside : ∀ ing ∉ ings, s.marked ing = false ∧ s.told ing = 0
  untold : ∀ key ∉ ings.map objectKey, b.told key path = 0

section Claims

variable {path : String} {ings : List Ingress} {b : MinionBuild} {s : State Ingress}
  {ing : Ingress} (h : SeenFrom path ings b s)
include h

theorem SeenFrom.eq_of_key {ing' : Ingress} (hin : ing ∈ ings) (hin' : ing' ∈ ings)
    (hkey : objectKey ing = objectKey ing') : ing = ing' := by
  have hing := h.entered ing hin
  rw [hkey, h.entered ing' hin', some.injEq] at hing
  exact hing.symm

theorem SeenFrom.key_eq {ing' : Ingress} (hin : ing ∈ ings) (hin' : ing' ∈ ings) :
    objectKey ing = objectKey ing' ↔ ing = ing' :=
  ⟨h.eq_of_key hin hin', fun heq => heq ▸ rfl⟩

theorem SeenFrom.mark (hin : ing ∈ ings) (valid : Bool) :
    SeenFrom path ings (b.setValid (objectKey ing) path valid) (s.mark ing valid) where
  entered x hx := (ingress_setValid b _ _ _ _).trans (h.entered x hx)
  holder := h.holder
  known := h.known
  told := h.told
  valid x hx := by
    have hpresent : (b.minions[objectKey ing]?).isSome = true := by
      rw [← isSome_map (f := MinionConfiguration.ingress), h.entered ing hin]
      rfl
    rw [isValid_setValid, hpresent, Bool.and_true, h.valid x hx]
    simp only [h.key_eq hx hin, and_true]
    rfl
  outside x hx := by
    have hne : x ≠ ing := fun heq => hx (heq ▸ hin)
    simpa [State.mark, hne] using h.outside x hx
  untold := h.untold

theorem SeenFrom.tell (hin : ing ∈ ings) :
    SeenFrom path ings (b.warn (objectKey ing) path) (s.tell ing) where
  entered := h.entered
  holder := h.holder
  known := h.known
  valid := h.valid
  told x hx := by
    rw [told_warn, h.told x hx]
    simp only [h.key_eq hx hin, and_true]
    rfl
  outside x hx := by
    have hne : x ≠ ing := fun heq => hx (heq ▸ hin)
    simpa [State.tell, hne] using h.outside x hx
  untold key hkey := by
    have hne : key ≠ objectKey ing := fun heq => hkey (heq ▸ mem_map_of_mem hin)
    rw [told_warn, if_neg fun hboth => hne hboth.1]
    exact h.untold key hkey

theorem SeenFrom.take (hin : ing ∈ ings) :
    SeenFrom path ings (b.take ing path) ({ s with holder := some ing }.mark ing true) := by
  have hheld : SeenFrom path ings { b with paths := b.paths.insert path (objectKey ing) }
      { s with holder := some ing } := by
    refine ⟨h.entered, ?_, ?_, h.valid, h.told, h.outside, h.untold⟩
    · rw [get_insert, if_pos rfl]
      rfl
    · intro x hx
      cases hx
      exact hin
  exact hheld.mark hin true

/-- A claim to another path is not seen. -/
theorem SeenFrom.claimOther (ing : Ingress) {p : HTTPIngressPath} (hp : p.path ≠ path) :
    SeenFrom path ings (b.claimPath ing p) s := by
  have hmark : ∀ {b : MinionBuild}, SeenFrom path ings b s → ∀ key valid,
      SeenFrom path ings (b.setValid key p.path valid) s := by
    intro b h key valid
    refine ⟨fun x hx => (ingress_setValid b _ _ _ _).trans (h.entered x hx), h.holder, h.known,
      fun x hx => ?_, h.told, h.outside, h.untold⟩
    rw [isValid_setValid, if_neg fun hboth => hp hboth.2.symm]
    exact h.valid x hx
  have htell : ∀ {b : MinionBuild}, SeenFrom path ings b s → ∀ key,
      SeenFrom path ings (b.warn key p.path) s := by
    intro b h key
    have hsame : ∀ k, (b.warn key p.path).told k path = b.told k path := fun k => by
      rw [told_warn, if_neg fun hboth => hp hboth.2.symm]
    refine ⟨h.entered, h.holder, h.known, h.valid, fun x hx => ?_, h.outside, fun k hk => ?_⟩
    · rw [hsame, h.told x hx]
    · rw [hsame, h.untold k hk]
  have htake : SeenFrom path ings (b.take ing p.path) s := by
    have hheld : SeenFrom path ings
        { b with paths := b.paths.insert p.path (objectKey ing) } s := by
      refine ⟨h.entered, ?_, h.known, h.valid, h.told, h.outside, h.untold⟩
      rw [get_insert, if_neg hp]
      exact h.holder
    exact hmark hheld (objectKey ing) true
  rw [claimPath_eq]
  cases b.paths[p.path]? with
  | none => exact htake
  | some holder =>
    simp only
    split
    · exact htell h (objectKey ing)
    · exact htell (hmark htake holder false) holder

/-- A claim to the path is a claim to the place. -/
theorem SeenFrom.claim (hin : ing ∈ ings) {p : HTTPIngressPath} (hp : p.path = path) :
    SeenFrom path ings (b.claimPath ing p) (ContestedPlace.claim minionAge s ing) := by
  rw [claimPath_eq, hp, h.holder]
  unfold ContestedPlace.claim
  cases hholder : s.holder with
  | none => exact h.take hin
  | some x =>
    have hx := h.known x hholder
    have hwins : b.holderWins (objectKey x) ing = decide (minionAge x < minionAge ing) := by
      obtain ⟨m, hm, rfl⟩ := map_eq_some_iff.mp (h.entered x hx)
      rw [Bool.eq_iff_iff, decide_eq_true_iff]
      unfold holderWins
      rw [hm]
      exact chooseObjectMetaWinner_iff
    simp only [map_some, hwins, decide_eq_true_eq]
    split
    · exact h.tell hin
    · exact ((h.take hin).mark hx false).tell hx

theorem SeenFrom.enter (hnew : objectKey ing ∉ ings.map objectKey) :
    SeenFrom path (ings ++ [ing]) (b.enter ing) s := by
  have hne : ∀ x ∈ ings, objectKey ing ≠ objectKey x := fun x hx heq =>
    hnew (heq ▸ mem_map_of_mem hx)
  have hout := h.outside ing fun hin => hnew (mem_map_of_mem hin)
  refine ⟨forall_mem_append.mpr ⟨fun x hx => ?_, by simp [MinionBuild.enter]⟩, h.holder,
    fun x hx => mem_append_left _ (h.known x hx), forall_mem_append.mpr ⟨fun x hx => ?_, ?_⟩,
    forall_mem_append.mpr ⟨h.told, ?_⟩, fun x hx => h.outside x fun hin =>
      hx (mem_append_left _ hin),
    fun key hkey => h.untold key fun hin => hkey (by simp [mem_map.mp hin])⟩
  · rw [MinionBuild.enter, get_insert, if_neg (hne x hx)]
    exact h.entered x hx
  · rw [MinionBuild.isValid, MinionBuild.enter, get_insert, if_neg (hne x hx)]
    exact h.valid x hx
  · simp [MinionBuild.isValid, MinionBuild.enter, hout.1]
  · rw [forall_mem_singleton, hout.2]
    exact h.untold _ hnew

omit h

theorem SeenFrom.claimPaths {claims : List Ingress}
    (h : SeenFrom path ings b (run minionAge claims)) (hin : ing ∈ ings)
    (paths : List HTTPIngressPath) : SeenFrom path ings (paths.foldl (claimPath ing) b)
      (run minionAge
        (claims ++ replicate ((paths.map HTTPIngressPath.path).count path) ing)) := by
  induction paths using reverseRecOn with
  | nil => simpa using h
  | append_singleton paths p ih =>
    rw [foldl_append, map_append, count_append]
    by_cases hp : p.path = path
    · rw [map_singleton, hp, count_singleton_self, replicate_succ',
        ← append_assoc, ContestedPlace.run_concat]
      exact ih.claim hin hp
    · rw [map_singleton, count_singleton, if_neg (by simpa using hp), Nat.add_zero]
      exact ih.claimOther ing hp

theorem seenFrom_minionBuild (path : String) {ings : List Ingress}
    (hnodup : (ings.map objectKey).Nodup) :
    SeenFrom path ings (minionBuild ings)
      (run minionAge (pathClaims path ings)) := by
  induction ings using reverseRecOn with
  | nil =>
    refine ⟨by simp, ?_, ?_, by simp, by simp, fun ing _ => ⟨rfl, rfl⟩, fun key _ => ?_⟩
    · simp [minionBuild, pathClaims, run]
    · simp [pathClaims, run]
    · simp [minionBuild, told]
  | append_singleton ings ing ih =>
    rw [map_append, nodup_append'] at hnodup
    have hnew : objectKey ing ∉ ings.map objectKey := fun hin =>
      hnodup.2.2 hin (by simp)
    have hentered := (ih hnodup.1).enter hnew
    rw [minionBuild_concat, pathClaims, flatMap_append, flatMap_singleton]
    exact hentered.claimPaths (by simp) ing.firstPaths

end Claims

/-! ## The outcome for a path -/

section Outcome

variable {path : String} {ings : List Ingress}

theorem mem_pathClaims {ing : Ingress} :
    ing ∈ pathClaims path ings ↔ ing ∈ ings ∧ path ∈ minionPaths ing := by
  simp only [pathClaims, mem_flatMap, mem_replicate, ne_eq, count_eq_zero, not_not]
  constructor
  · rintro ⟨ing', hin, hpath, rfl⟩
    exact ⟨hin, hpath⟩
  · exact fun h => ⟨ing, h.1, h.2, rfl⟩

theorem count_pathClaims (hnodup : ings.Nodup) {ing : Ingress} (hin : ing ∈ ings) :
    (pathClaims path ings).count ing = (minionPaths ing).count path := by
  induction ings with
  | nil => cases hin
  | cons first ings ih =>
    rw [nodup_cons] at hnodup
    have hcons : pathClaims path (first :: ings) =
        replicate ((minionPaths first).count path) first ++ pathClaims path ings := rfl
    rw [hcons, count_append, count_replicate]
    obtain rfl | hin := mem_cons.mp hin
    · have hnone : (pathClaims path ings).count ing = 0 :=
        count_eq_zero.mpr fun h => hnodup.1 (mem_pathClaims.mp h).1
      simp [hnone]
    · have hne : first ≠ ing := fun heq => hnodup.1 (heq ▸ hin)
      rw [if_neg (by simpa using hne), ih hnodup.2 hin, Nat.zero_add]

/-- The path is valid in the oldest of its claimants only, and every other claimant is told once. -/
def PathArbitrated (built : List MinionConfiguration × GoMap (List String)) (path : String) :
    Prop :=
  ∃ m ∈ built.1, path ∈ minionPaths m.ingress ∧ m.validPaths[path]? = some true ∧
    ∀ m' ∈ built.1, m' ≠ m → m'.validPaths[path]? ≠ some true ∧
      (path ∈ minionPaths m'.ingress → minionAge m.ingress < minionAge m'.ingress ∧
        ((built.2[objectKey m'.ingress]?).getD []).count (pathTaken path) = 1)

variable {m : MinionConfiguration} (hnodup : (ings.map objectKey).Nodup)
include hnodup

theorem mem_values_minionBuild : m ∈ values (minionBuild ings).minions ↔
      m.ingress ∈ ings ∧ (minionBuild ings).minions[objectKey m.ingress]? = some m := by
  rw [mem_values]
  constructor
  · rintro ⟨k, hk⟩
    have hin := (ingress_minionBuild hnodup).mp (map_eq_some_iff.mpr ⟨m, hk, rfl⟩)
    rw [hin.2]
    exact ⟨hin.1, hk⟩
  · exact fun h => ⟨_, h.2⟩

/-- A minion is told of every claim to the path but the one that holds it. -/
theorem told_minionBuild (hm : m ∈ values (minionBuild ings).minions) :
    (((minionBuild ings).childWarnings[objectKey m.ingress]?).getD []).count (pathTaken path) +
        (if Champion.champion minionAge (pathClaims path ings) = some m.ingress then 1 else 0) =
      (minionPaths m.ingress).count path := by
  have hin := ((mem_values_minionBuild hnodup).mp hm).1
  rw [← count_pathClaims (List.Nodup.of_map objectKey hnodup) hin,
    ← told_run minionAge, holder_run]
  exact congrArg (· + _) ((seenFrom_minionBuild path hnodup).told m.ingress hin)

variable (hages : ∀ a ∈ ings, ∀ b ∈ ings, minionAge a = minionAge b → a = b)
include hages

/-- The path is valid in the minion that holds it, if that one lists it once. -/
theorem valid_minionBuild (hm : m ∈ values (minionBuild ings).minions) :
    m.validPaths[path]? = some true ↔
      Champion.champion minionAge (pathClaims path ings) = some m.ingress ∧
        (minionPaths m.ingress).count path = 1 := by
  have hinj : ∀ x ∈ pathClaims path ings, ∀ y ∈ pathClaims path ings,
      minionAge x = minionAge y → x = y := fun x hx y hy =>
    hages x (mem_pathClaims.mp hx).1 y (mem_pathClaims.mp hy).1
  obtain ⟨hin, hget⟩ := (mem_values_minionBuild hnodup).mp hm
  have hvalid : m.validPaths[path]? = some true ↔
      (minionBuild ings).isValid (objectKey m.ingress) path = true := by
    rw [isValid, hget]
    simp
  have htold := told_run minionAge (pathClaims path ings) m.ingress
  rw [count_pathClaims (List.Nodup.of_map objectKey hnodup) hin] at htold
  rw [hvalid, (seenFrom_minionBuild path hnodup).valid m.ingress hin,
    ContestedPlace.marked_run minionAge hinj, holder_run]
  rw [holder_run] at htold
  refine and_congr_right fun hholder => ?_
  rw [if_pos hholder] at htold
  omega

/-- The arbitration of a path is right if nobody lists it twice. -/
theorem pathArbitrated_minionBuild (hclaimed : ∃ ing ∈ ings, path ∈ minionPaths ing) :
    PathArbitrated (values (minionBuild ings).minions, (minionBuild ings).childWarnings)
        path ↔ ∀ ing ∈ ings, (minionPaths ing).count path ≤ 1 := by
  have hconfig : ∀ ing ∈ ings,
      ∃ m ∈ values (minionBuild ings).minions, m.ingress = ing := by
    intro ing hin
    obtain ⟨m, hget, rfl⟩ := map_eq_some_iff.mp ((ingress_minionBuild hnodup).mpr ⟨hin, rfl⟩)
    exact ⟨m, (mem_values_minionBuild hnodup).mpr ⟨hin, hget⟩, rfl⟩
  constructor
  · intro harbitrated ing hin
    obtain ⟨m, hm, -, hmvalid, hothers⟩ := harbitrated
    obtain ⟨hholder, hmonce⟩ := (valid_minionBuild hnodup hages hm).mp hmvalid
    obtain ⟨m', hm', rfl⟩ := hconfig ing hin
    by_cases heq : m' = m
    · rw [heq, hmonce]
    by_cases hpath : path ∈ minionPaths m'.ingress
    · -- another claimant is told once
      obtain ⟨hold, honce⟩ := (hothers m' hm' heq).2 hpath
      have htold := @told_minionBuild path ings m' hnodup hm'
      have hlost : m.ingress ≠ m'.ingress := fun h => ne_of_lt hold (congrArg minionAge h)
      rw [hholder, if_neg fun h => hlost (some.inj h)] at htold
      simp only at honce
      omega
    · rw [count_eq_zero.mpr hpath]
      exact Nat.zero_le 1
  · intro honce
    obtain ⟨ing₀, hin₀, hpath₀⟩ := hclaimed
    cases hw : Champion.champion minionAge (pathClaims path ings) with
    | none =>
      have hnone := mem_pathClaims.mpr ⟨hin₀, hpath₀⟩
      rw [(Champion.champion_eq_none minionAge).mp hw] at hnone
      cases hnone
    | some w =>
      obtain ⟨hwclaims, hwleast⟩ := Champion.champion_spec minionAge hw
      obtain ⟨hwin, hwpath⟩ := mem_pathClaims.mp hwclaims
      obtain ⟨m, hm, rfl⟩ := hconfig w hwin
      have hmonce : (minionPaths m.ingress).count path = 1 :=
        le_antisymm (honce _ hwin) (count_pos_iff.mpr hwpath)
      refine ⟨m, hm, hwpath, (valid_minionBuild hnodup hages hm).mpr ⟨hw, hmonce⟩,
        fun m' hm' hne => ?_⟩
      obtain ⟨hin', hget'⟩ := (mem_values_minionBuild hnodup).mp hm'
      have hings : m'.ingress ≠ m.ingress := by
        intro heq
        rw [heq, ((mem_values_minionBuild hnodup).mp hm).2, some.injEq] at hget'
        exact hne hget'.symm
      have hlost : ¬ Champion.champion minionAge (pathClaims path ings) = some m'.ingress :=
        fun h => hings (some.inj (h.symm.trans hw))
      refine ⟨fun h => hlost ((valid_minionBuild hnodup hages hm').mp h).1,
        fun hpath => ⟨?_, ?_⟩⟩
      · apply lt_of_le_of_ne (hwleast _ (mem_pathClaims.mpr ⟨hin', hpath⟩))
        exact fun hage => hings (hages _ hwin _ hin' hage).symm
      · have htold := @told_minionBuild path ings m' hnodup hm'
        rw [if_neg hlost, Nat.add_zero] at htold
        rw [htold]
        exact le_antisymm (honce _ hin') (count_pos_iff.mpr hpath)

end Outcome

end Configuration

open IngressController.Configuration

/-- The minions of every host get the paths nobody lists twice right, and after startup those
minions are the ones of the masters in the host table. -/
theorem minion_paths_arbitrated_iff {env : Env} {c : Configuration} (hreach : Reachable env c)
    (huids : ∀ ing ing', Stored c (.ingress ing) → Stored c (.ingress ing') →
      ing.objectMeta.uid = ing'.objectMeta.uid → ing = ing') :
    (∀ masterHost path, (∃ ing ∈ minionsOfHost c masterHost, path ∈ minionPaths ing) →
      (PathArbitrated (buildMinionConfigs c masterHost) path ↔
        ∀ ing ∈ minionsOfHost c masterHost, (minionPaths ing).count path ≤ 1)) ∧
    (c.startupComplete = true → ∀ (host : String) ic, c.hosts[host]? = some (.ingress ic) →
      ic.isMaster = true →
        (ic.minions, ic.childWarnings) = buildMinionConfigs c ic.ingress.firstHost) := by
  refine ⟨fun masterHost path hclaimed => ?_, fun hstartup host ic hic hmaster =>
    hreach.minions_of_master hstartup hic hmaster⟩
  have hnodup : ((minionsOfHost c masterHost).map objectKey).Nodup := by
    apply (sorted_minionsOfHost c masterHost).imp
    intro a b hlt heq
    rw [heq, Std.compare_self] at hlt
    cases hlt
  have hages : ∀ a ∈ minionsOfHost c masterHost, ∀ b ∈ minionsOfHost c masterHost,
      minionAge a = minionAge b → a = b := fun a ha b hb hage =>
    huids a b (stored_of_minionsOfHost ha) (stored_of_minionsOfHost hb) (ObjectMeta.age_inj hage)
  rw [buildMinionConfigs_eq_build]
  exact pathArbitrated_minionBuild hnodup hages hclaimed

/-! ## A master with its minions -/

def cafeMaster : Ingress where
  objectMeta := {
    nspace := .of "default"
    name := .of "cafe"
    uid := "7d1f"
    annotations := (∅ : GoMap String).insert mergeableIngressType "master" }
  spec := { rules := [{ host := "cafe.example.com" }] }

def cafeMinion (name : ResourceName) (uid : String) (creationTimestamp : ℤ)
    (paths : List HTTPIngressPath) : Ingress where
  objectMeta := {
    nspace := .of "default", name, uid, creationTimestamp
    annotations := (∅ : GoMap String).insert mergeableIngressType "minion" }
  spec := { rules := [{ host := "cafe.example.com", http := some paths }] }

def withRivalMinions : Configuration :=
  Op.runs (Env.permissive false) {} [
    (.asGiven, .api (.addOrUpdateIngress cafeMaster)),
    (.asGiven, .api (.addOrUpdateIngress
      (cafeMinion (.of "coffee") "1c0e" 200 [{ path := "/coffee" }, { path := "/tea" }]))),
    (.asGiven, .api (.addOrUpdateIngress
      (cafeMinion (.of "tea") "5a9b" 100 [{ path := "/tea" }]))),
    (.asGiven, .completeStartup)]

theorem minion_paths_arbitrated_iff_rivals :
    PathArbitrated (buildMinionConfigs withRivalMinions "cafe.example.com") "/tea" := by
  have huids : ∀ a ∈ withRivalMinions.ingresses.sorted, ∀ b ∈ withRivalMinions.ingresses.sorted,
      a.objectMeta.uid = b.objectMeta.uid → a = b := by decide +kernel
  refine ((minion_paths_arbitrated_iff (Reachable.init.runs _) fun a b ha hb =>
    huids a (Store.mem_sorted.mpr ha) b (Store.mem_sorted.mpr hb)).1 "cafe.example.com" "/tea"
      ?_).mpr ?_
  · decide +kernel
  · decide +kernel

/-- A minion that lists its path with two path types. -/
def teaTwice : Ingress :=
  cafeMinion (.of "tea") "5a9b" 100
    [{ path := "/tea", pathType := some .exact }, { path := "/tea", pathType := some .prefixed }]

def withTeaTwice : Configuration :=
  Op.runs (Env.permissive false) {} [
    (.asGiven, .api (.addOrUpdateIngress cafeMaster)),
    (.asGiven, .api (.addOrUpdateIngress teaTwice)),
    (.asGiven, .completeStartup)]

/-- The only claimant of the path loses it to itself. -/
theorem minion_loses_path_to_itself :
    Reachable (Env.permissive false) withTeaTwice ∧
      minionsOfHost withTeaTwice "cafe.example.com" = [teaTwice] ∧
      ¬ PathArbitrated (buildMinionConfigs withTeaTwice "cafe.example.com") "/tea" ∧
      ((buildMinionConfigs withTeaTwice "cafe.example.com").1.map fun m =>
        m.validPaths["/tea"]?) = [some false] ∧
      (buildMinionConfigs withTeaTwice "cafe.example.com").2["default/tea"]? =
        some [pathTaken "/tea"] := by
  have hvalid : ((buildMinionConfigs withTeaTwice "cafe.example.com").1.map fun m =>
      m.validPaths["/tea"]?) = [some false] := by decide +kernel
  refine ⟨Reachable.init.runs _, by decide +kernel, fun h => ?_, hvalid, by decide +kernel⟩
  obtain ⟨m, hm, -, htrue, -⟩ := h
  have hin := mem_map_of_mem (f := fun m : MinionConfiguration => m.validPaths["/tea"]?) hm
  rw [hvalid, htrue] at hin
  simp at hin

end IngressController
