import IngressController.Configuration.Hosts

/-! # The minions of a master

The paths of a master are shared out among its minions in one pass, in the order of their keys.
The outcome depends on their specs and on which of two that list the same path is older.
-/

namespace IngressController

open Table List Option
open MinionConfiguration (ingress)

namespace Configuration

def MinionBuild.enter (ing : Ingress) (b : MinionBuild) : MinionBuild :=
  { b with minions := b.minions.insert (objectKey ing) { ingress := ing } }

def minionBuild (ings : List Ingress) : MinionBuild :=
  ings.foldl (fun b ing => ing.firstPaths.foldl (MinionBuild.claimPath ing) (b.enter ing)) {}

def minionsOfHost (c : Configuration) (masterHost : String) : List Ingress :=
  ((c.minionsByHost[masterHost]?).getD ∅).keys.filterMap c.ingresses.get

variable (c : Configuration)

theorem buildMinionConfigs_eq_build (masterHost : String) : buildMinionConfigs c masterHost =
      let b := minionBuild (minionsOfHost c masterHost)
      (values b.minions, b.childWarnings) := by
  unfold buildMinionConfigs minionBuild minionsOfHost
  refine congrArg (fun b : MinionBuild => (values b.minions, b.childWarnings)) ?_
  simp only [foldl_filterMap]
  apply foldl_ext
  intro b key _
  cases hget : c.ingresses.get key with
  | none => rfl
  | some ing => simp only [MinionBuild.enter, c.ingresses.key_of_get hget]

theorem buildMinionConfigs_eq (masterHost : String) : (buildMinionConfigs c masterHost).1 =
      values (minionBuild (minionsOfHost c masterHost)).minions := by
  rw [buildMinionConfigs_eq_build]

theorem ingress_setValid (b : MinionBuild) (key path : String) (valid : Bool) (k : String) :
    (b.setValid key path valid).minions[k]?.map ingress =
      b.minions[k]?.map ingress := by
  unfold MinionBuild.setValid
  rw [get_modify]
  split
  · rw [Option.map_map]
    rfl
  · rfl

def MinionBuild.holderWins (b : MinionBuild) (holder : String) (ing : Ingress) : Bool :=
  match b.minions[holder]? with
  | some m => chooseObjectMetaWinner m.ingress.objectMeta ing.objectMeta
  | none => false

variable (ing : Ingress)

def MinionBuild.take (path : String) (b : MinionBuild) : MinionBuild :=
  { b with paths := b.paths.insert path (objectKey ing) }.setValid (objectKey ing) path true

theorem claimPath_eq (b : MinionBuild) (p : HTTPIngressPath) :
    b.claimPath ing p =
      match b.paths[p.path]? with
      | none => b.take ing p.path
      | some holder =>
        if b.holderWins holder ing then b.warn (objectKey ing) p.path
        else ((b.take ing p.path).setValid holder p.path false).warn holder p.path :=
  rfl

theorem ingress_claimPath (b : MinionBuild) (p : HTTPIngressPath) (k : String) :
    (b.claimPath ing p).minions[k]?.map ingress =
      b.minions[k]?.map ingress := by
  simp only [claimPath_eq]
  cases b.paths[p.path]? with
  | none => exact ingress_setValid _ _ _ _ k
  | some holder =>
    cases hwins : b.holderWins holder ing with
    | true => simp [hwins, MinionBuild.warn]
    | false =>
      simp only [hwins, Bool.false_eq_true, if_false]
      exact (ingress_setValid _ _ _ _ k).trans (ingress_setValid _ _ _ _ k)

theorem ingress_claimPaths (paths : List HTTPIngressPath) (b : MinionBuild) (k : String) :
    (paths.foldl (MinionBuild.claimPath ing) b).minions[k]?.map ingress =
      b.minions[k]?.map ingress := by
  induction paths generalizing b with
  | nil => rfl
  | cons p paths ih => exact (ih (b.claimPath ing p)).trans (ingress_claimPath ing b p k)

theorem minionBuild_concat (ings : List Ingress) (ing : Ingress) :
    minionBuild (ings ++ [ing]) =
      ing.firstPaths.foldl (MinionBuild.claimPath ing) ((minionBuild ings).enter ing) := by
  rw [minionBuild, foldl_append, foldl_cons, foldl_nil]
  rfl

variable {ings : List Ingress} {ing : Ingress}

theorem ingress_minionBuild (hnodup : (ings.map objectKey).Nodup) {k : String} :
    (minionBuild ings).minions[k]?.map ingress = some ing ↔
      ing ∈ ings ∧ objectKey ing = k := by
  induction ings using reverseRecOn with
  | nil => simp [minionBuild]
  | append_singleton ings last ih =>
    rw [map_append, nodup_append'] at hnodup
    have hlast : ∀ ing' ∈ ings, objectKey ing' ≠ objectKey last := by
      intro ing' hin heq
      exact hnodup.2.2 (mem_map_of_mem hin) (by simp [heq])
    rw [minionBuild_concat, ingress_claimPaths, MinionBuild.enter, get_insert]
    by_cases hk : objectKey last = k
    · rw [if_pos hk]
      simp only [map_some, some.injEq, mem_append, mem_singleton]
      constructor
      · intro heq
        exact ⟨.inr heq.symm, heq ▸ hk⟩
      · intro hin
        obtain ⟨hin | hin, hkey⟩ := hin
        · exact absurd (hkey.trans hk.symm) (hlast ing hin)
        · exact hin.symm
    · rw [if_neg hk, ih hnodup.1, mem_append, mem_singleton]
      constructor
      · intro hin
        exact ⟨.inl hin.1, hin.2⟩
      · intro hin
        obtain ⟨hin | hin, hkey⟩ := hin
        · exact ⟨hin, hkey⟩
        · exact absurd (hin ▸ hkey) hk

theorem nodup_of_sorted {keys : List String} (h : keys.Pairwise (compare · · = .lt)) :
    keys.Nodup := by
  apply h.imp
  intro a b hlt heq
  rw [heq, Std.compare_self] at hlt
  cases hlt

/-- Minions sorted by their keys come out in the same order. -/
theorem map_ingress_values (hsorted : (ings.map objectKey).Pairwise (compare · · = .lt)) :
    (values (minionBuild ings).minions).map ingress = ings := by
  have hnodup := nodup_of_sorted hsorted
  have hkeys : (minionBuild ings).minions.keys = ings.map objectKey := by
    apply keys_eq_of_sorted hsorted
    intro k
    constructor
    · intro hk
      obtain ⟨ing, hin, hkey⟩ := mem_map.mp hk
      obtain ⟨m, hm, -⟩ := map_eq_some_iff.mp ((ingress_minionBuild hnodup).mpr ⟨hin, hkey⟩)
      exact ⟨m, hm⟩
    · intro hk
      obtain ⟨m, hm⟩ := hk
      have hin := (ingress_minionBuild hnodup).mp (map_eq_some_iff.mpr ⟨m, hm, rfl⟩)
      exact mem_map.mpr ⟨m.ingress, hin⟩
  rw [values_eq_filterMap, map_filterMap, hkeys, filterMap_map]
  refine (filterMap_congr (g := some) fun ing hin => ?_).trans filterMap_some
  exact (ingress_minionBuild hnodup).mpr ⟨hin, rfl⟩

theorem sorted_minionsOfHost (masterHost : String) :
    ((minionsOfHost c masterHost).map objectKey).Pairwise (compare · · = .lt) := by
  have hsub : ∀ keys : List String,
      ((keys.filterMap c.ingresses.get).map objectKey).Sublist keys := by
    intro keys
    induction keys with
    | nil => exact List.Sublist.slnil
    | cons key keys ih =>
      cases hget : c.ingresses.get key with
      | none =>
        rw [filterMap_cons_none hget]
        exact ih.cons key
      | some ing =>
        rw [filterMap_cons_some hget, map_cons, c.ingresses.key_of_get hget]
        exact ih.cons_cons key
  exact Std.ExtTreeMap.ordered_keys.sublist (hsub _)

def minionPaths (ing : Ingress) : List String := ing.firstPaths.map HTTPIngressPath.path

/-- The new versions of minions that list the same path keep their order of age. -/
structure KeepsOrder (next : Ingress → Ingress) (ings : List Ingress) : Prop where
  key : ∀ ing ∈ ings, objectKey (next ing) = objectKey ing
  spec : ∀ ing ∈ ings, (next ing).spec = ing.spec
  order : ∀ ing ∈ ings, ∀ ing' ∈ ings, ¬ (minionPaths ing).Disjoint (minionPaths ing') →
    chooseObjectMetaWinner (next ing).objectMeta (next ing').objectMeta =
      chooseObjectMetaWinner ing.objectMeta ing'.objectMeta

/-- The second build is the first one with the new versions of the minions. -/
structure SameMinions (next : Ingress → Ingress) (ings : List Ingress) (b b' : MinionBuild) :
    Prop where
  paths : b'.paths = b.paths
  minions : ∀ k : String, b'.minions[k]? =
    b.minions[k]?.map fun m => { m with ingress := next m.ingress }
  /-- The holder of a path lists it. -/
  holder : ∀ path holder : String, b.paths[path]? = some holder → ∃ ing ∈ ings,
    path ∈ minionPaths ing ∧ b.minions[holder]?.map ingress = some ing

section Versions

variable {next : Ingress → Ingress} {b b' : MinionBuild}

theorem SameMinions.setValid (h : SameMinions next ings b b') (key path : String) (valid : Bool) :
    SameMinions next ings (b.setValid key path valid) (b'.setValid key path valid) where
  paths := h.paths
  minions k := by
    unfold MinionBuild.setValid
    rw [get_modify, get_modify, h.minions]
    split
    · rw [Option.map_map, Option.map_map]
      rfl
    · rfl
  holder q holder hq := by
    rw [ingress_setValid]
    exact h.holder q holder hq

variable (hnext : KeepsOrder next ings) (hin : ing ∈ ings)
include hnext hin

theorem SameMinions.claimPath (h : SameMinions next ings b b')
    (hentered : b.minions[objectKey ing]?.map ingress = some ing) {p : HTTPIngressPath}
    (hp : p ∈ ing.firstPaths) :
    SameMinions next ings (b.claimPath ing p) (b'.claimPath (next ing) p) := by
  have hlists : p.path ∈ minionPaths ing := mem_map_of_mem hp
  have htaken : SameMinions next ings (b.take ing p.path) (b'.take (next ing) p.path) := by
    have hheld : SameMinions next ings { b with paths := b.paths.insert p.path (objectKey ing) }
        { b' with paths := b'.paths.insert p.path (objectKey ing) } := by
      refine ⟨by rw [h.paths], h.minions, fun q holder hq => ?_⟩
      rw [get_insert] at hq
      split at hq
      · cases hq
        exact ⟨ing, hin, ‹p.path = q› ▸ hlists, hentered⟩
      · exact h.holder q holder hq
    rw [MinionBuild.take, MinionBuild.take, hnext.key ing hin]
    exact hheld.setValid _ _ _
  rw [claimPath_eq, claimPath_eq, h.paths, hnext.key ing hin]
  cases hheld : b.paths[p.path]? with
  | none => exact htaken
  | some holder =>
    have hwins : b'.holderWins holder (next ing) = b.holderWins holder ing := by
      obtain ⟨_, hm, hlists', heq⟩ := h.holder p.path holder hheld
      obtain ⟨m, hget, rfl⟩ := map_eq_some_iff.mp heq
      simp only [MinionBuild.holderWins, h.minions, hget, map_some]
      exact hnext.order _ hm ing hin fun hdisjoint => hdisjoint hlists' hlists
    simp only [hwins]
    cases b.holderWins holder ing with
    | true => exact ⟨h.paths, h.minions, h.holder⟩
    | false =>
      have hlost := htaken.setValid holder p.path false
      exact ⟨hlost.paths, hlost.minions, hlost.holder⟩

theorem SameMinions.claimPaths (h : SameMinions next ings b b')
    (hentered : b.minions[objectKey ing]?.map ingress = some ing) {paths : List HTTPIngressPath}
    (hpaths : paths ⊆ ing.firstPaths) :
    SameMinions next ings (paths.foldl (MinionBuild.claimPath ing) b)
      (paths.foldl (MinionBuild.claimPath (next ing)) b') := by
  induction paths generalizing b b' with
  | nil => exact h
  | cons p paths ih =>
    rw [cons_subset] at hpaths
    exact ih (h.claimPath hnext hin hentered hpaths.1)
      ((ingress_claimPath ing b p _).trans hentered) hpaths.2

omit hin

theorem sameMinions_minionBuild {entered : List Ingress} (hsub : entered ⊆ ings)
    (hnodup : (entered.map objectKey).Nodup) :
    SameMinions next ings (minionBuild entered) (minionBuild (entered.map next)) := by
  induction entered using reverseRecOn with
  | nil => exact ⟨rfl, fun _ => by simp [minionBuild], fun _ _ h => by simp [minionBuild] at h⟩
  | append_singleton entered last ih =>
    rw [append_subset, cons_subset] at hsub
    rw [map_append, nodup_append'] at hnodup
    have hprev := ih hsub.1 hnodup.1
    have hpaths : (next last).firstPaths = last.firstPaths := by
      simp only [Ingress.firstPaths, hnext.spec last hsub.2.1]
    rw [map_append, map_singleton, minionBuild_concat, minionBuild_concat, hpaths]
    have henter : SameMinions next ings ((minionBuild entered).enter last)
        ((minionBuild (entered.map next)).enter (next last)) := by
      refine ⟨hprev.paths, fun k => ?_, fun path holder h => ?_⟩
      · rw [MinionBuild.enter, MinionBuild.enter, get_insert, get_insert, hnext.key last hsub.2.1]
        split
        · rfl
        · exact hprev.minions k
      · obtain ⟨ing, hin, hlists, heq⟩ := hprev.holder path holder h
        obtain ⟨hing, hkey⟩ := (ingress_minionBuild hnodup.1).mp heq
        have hne : objectKey last ≠ holder := fun hsame =>
          hnodup.2.2 (mem_map_of_mem hing) (by simp [hkey, hsame])
        rw [MinionBuild.enter, get_insert, if_neg hne]
        exact ⟨ing, hin, hlists, heq⟩
    exact henter.claimPaths hnext hsub.2.1 (by simp [MinionBuild.enter]) (Subset.refl _)

/-- The new versions get the same paths. -/
theorem map_validPaths_values (hnodup : (ings.map objectKey).Nodup) :
    (values (minionBuild (ings.map next)).minions).map MinionConfiguration.validPaths =
      (values (minionBuild ings).minions).map MinionConfiguration.validPaths :=
  map_values_congr fun k => by
    rw [(sameMinions_minionBuild hnext (Subset.refl ings) hnodup).minions k, Option.map_map]
    rfl

end Versions

end Configuration

end IngressController
