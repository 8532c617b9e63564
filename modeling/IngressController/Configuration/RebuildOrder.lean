import IngressController.Configuration.RouteBlocks
import IngressController.Configuration.SilentDrops

/-! # Rebuilding twice

Neither a second rebuild nor another order of the loops should change anything. The holders of hosts
do not depend on the order. The routes of a VirtualServer do when a selector finds several of them,
and the holder of a listener does when two TransportServers are equally old.
-/

namespace IngressController

open IngressController.Configuration Pruning ChangeLog Arbitration Resource Champion List
open Validation (normalizePath)

/-! ## What does not depend on the order -/

/-- A resource without its warnings, and a VirtualServer without its routes. -/
def Resource.frame : Resource → Resource
  | .ingress ic => (ingress ic).bare
  | .virtualServer vsc => .virtualServer { virtualServer := vsc.virtualServer }
  | .transportServer tsc => (transportServer tsc).bare

section Frames

variable {env : Env} {c : Configuration}

@[simp] theorem Resource.frame_bare (r : Resource) : r.bare.frame = r.frame := by
  cases r <;> rfl

variable {r r' : Resource}

theorem Resource.frame_of_bare (h : r.bare = r'.bare) : r.frame = r'.frame := by
  rw [← r.frame_bare, h, r'.frame_bare]

@[simp] theorem Resource.object_frame (r : Resource) : r.frame.object = r.object := by
  cases r <;> rfl

theorem Resource.object_of_frame (h : r.frame = r'.frame) : r.object = r'.object := by
  rw [← r.object_frame, h, r'.object_frame]

@[simp] theorem Resource.age_frame (r : Resource) : r.frame.age = r.age := by
  cases r <;> rfl

theorem Resource.name_of_frame (h : r.frame = r'.frame) : r.getKeyWithKind = r'.getKeyWithKind := by
  rw [r.getKeyWithKind_eq, r'.getKeyWithKind_eq, object_of_frame h]

theorem Resource.bare_of_frame (h : r.frame = r'.frame)
    (hkind : ∀ vs, r.object ≠ .virtualServer vs) : r.bare = r'.bare := by
  cases r with
  | virtualServer vsc => exact absurd rfl (hkind _)
  | ingress | transportServer =>
    cases r' with
    | virtualServer => cases h
    | _ => exact h

theorem frame_virtualServerResource (env : Env) (c : Configuration) (ord : Order)
    (challengesVSR : List VirtualServerRoute) (vs : VirtualServer) :
    (virtualServerResource env c ord challengesVSR vs).frame =
      .virtualServer { virtualServer := vs } := by
  simp only [virtualServerResource, frame, (buildListeners_keeps c _).1]

theorem frames_hostClaims (env : Env) (c : Configuration) (ord ord' : Order) :
    (hostClaims env c ord).map (fun e => (e.1.frame, e.2)) =
      (hostClaims env c ord').map fun e => (e.1.frame, e.2) := by
  simp only [hostClaims, map_append, map_map, Function.comp_def, virtualServerClaim,
    frame_virtualServerResource]

theorem map_frame_hostClaims (env : Env) (c : Configuration) (ord ord' : Order) :
    (hostClaims env c ord).map (fun e => e.1.frame) =
      (hostClaims env c ord').map fun e => e.1.frame := by
  have hframes := congrArg (map Prod.fst) (frames_hostClaims env c ord ord')
  rwa [map_map, map_map] at hframes

theorem champion_frame (host : String) (entries : List (Resource × List String)) :
    (champion hostContest.rank (claimants host entries)).map frame = champion hostContest.rank
        (claimants host (entries.map fun e => (e.1.frame, e.2))) := by
  have hrank : hostContest.rank = fun r => hostContest.rank r.frame :=
    funext fun r => (age_frame r).symm
  rw [claimants_map, champion_map, ← hrank]

/-- The champion of a host does not depend on the order, its routes apart. -/
theorem champion_order (env : Env) (c : Configuration) (ord ord' : Order) (host : String) :
    (champion hostContest.rank (claimants host (hostClaims env c ord))).map frame =
      (champion hostContest.rank (claimants host (hostClaims env c ord'))).map frame := by
  rw [champion_frame, champion_frame, frames_hostClaims env c ord ord']

theorem holdsHost_order {ord ord' : Order} {host : String} {x : ConfigurationObject}
    (h : HoldsHost env c ord host x) : HoldsHost env c ord' host x := by
  obtain ⟨r, hr, rfl⟩ := h
  have hsame := champion_order env c ord ord' host
  rw [hr, Option.map_some, eq_comm, Option.map_eq_some_iff] at hsame
  obtain ⟨r', hr', hframe⟩ := hsame
  exact ⟨r', hr', object_of_frame hframe⟩

variable (hok : StoresOk env c)

include hok

theorem hosts_order (ord ord' : Order) :
    (buildHostsAndResources env c ord).hosts = (buildHostsAndResources env c ord').hosts := by
  have hname : hostContest.name = hostContest.name ∘ frame :=
    funext fun r => name_of_frame (by cases r <;> rfl)
  have hholder : ∀ o (host : String), (buildHostsAndResources env c o).hosts[host]? =
      ((champion hostContest.rank (claimants host (hostClaims env c o))).map frame).map
          hostContest.name := by
    intro o host
    rw [Option.map_map, ← hname]
    exact (settled_build hok.ingresses).holder host
  apply Std.ExtTreeMap.ext_getElem?
  intro host
  rw [hholder, hholder, champion_order env c ord ord']

theorem frame_resources {ord ord' : Order} {key : String}
    (hr : (buildHostsAndResources env c ord).resources[key]? = some r) :
    ∃ r', (buildHostsAndResources env c ord').resources[key]? = some r' ∧ r'.frame = r.frame := by
  have hsettled : ∀ o, Settled hostContest (hostClaims env c o) _ :=
    fun o => settled_build hok.ingresses
  refine (hsettled ord).contenders_eq (fun _ _ => frame_of_bare) (fun _ _ => name_of_frame)
    (hsettled ord') ?_ hr
  rw [map_frame_hostClaims env c ord ord']
  exact List.Subset.refl _

theorem map_frame_resources (ord ord' : Order) (key : String) :
    (buildHostsAndResources env c ord).resources[key]?.map frame =
      (buildHostsAndResources env c ord').resources[key]?.map frame :=
  map_eq_map_of_exists (fun _ => frame_resources hok) fun _ => frame_resources hok

end Frames

/-! ## The same routes -/

abbrev attached (env : Env) (c : Configuration) (ord : Order) (vs : VirtualServer) :
    List VirtualServerRoute :=
  (buildVirtualServerRoutes env c.virtualServerRoutes ord vs).1

variable {hosts hosts' : GoMap Resource} {vs : VirtualServer}

section SameRoutes

variable {env : Env} {c : Configuration} {ord ord' : Order}

/-- The selectors list the same keys when the same routes are attached. -/
theorem selectors_order (h : ∀ v, v ∈ attached env c ord vs ↔ v ∈ attached env c ord' vs) :
    (buildVirtualServerRoutes env c.virtualServerRoutes ord vs).2.1 =
      (buildVirtualServerRoutes env c.virtualServerRoutes ord' vs).2.1 := by
  have hsides := (sameSides_classify env c.virtualServerRoutes vs ord ord').vsrSelectors
  have hkeys : ∀ k,
      k ∈ (attached env c ord vs).map objectKey ↔ k ∈ (attached env c ord' vs).map objectKey := by
    intro k
    simp only [mem_map, h]
  change syncVSRSelectors _ (attached env c ord vs) = syncVSRSelectors _ (attached env c ord' vs)
  unfold syncVSRSelectors
  rw [hsides]
  simp only [hkeys]

theorem bare_virtualServerResource (h : attached env c ord vs = attached env c ord' vs)
    (challengesVSR : List VirtualServerRoute) :
    (virtualServerResource env c ord challengesVSR vs).bare =
      (virtualServerResource env c ord' challengesVSR vs).bare := by
  have hselectors : (buildVirtualServerRoutes env c.virtualServerRoutes ord vs).2.1 =
      (buildVirtualServerRoutes env c.virtualServerRoutes ord' vs).2.1 :=
    selectors_order fun v => by rw [h]
  simp only [virtualServerResource, Resource.bare, (buildListeners_keeps c _).2.2.2.2, h,
    hselectors]

theorem bare_of_claims {e e' : Resource × List String} (he : e ∈ hostClaims env c ord)
    (he' : e' ∈ hostClaims env c ord') (hframe : e.1.frame = e'.1.frame)
    (hroutes : ∀ vs, e.1.object = .virtualServer vs →
      attached env c ord vs = attached env c ord' vs) :
    e.1.bare = e'.1.bare := by
  have hvirtual : ∀ o, ∀ e ∈ hostClaims env c o, ∀ vs, e.1.object = .virtualServer vs →
      e.1 = virtualServerResource env c o (challenges env c) vs := by
    intro o e he vs hobject
    have hclaims := claimsHost_of_mem he
    rw [hobject] at hclaims
    have hstored : vs ∈ c.virtualServers.sorted := Store.mem_sorted.mpr hclaims.1
    have hclaim : virtualServerClaim env c o vs ∈ hostClaims env c o :=
      mem_append_left _ (mem_append_right _ (mem_map_of_mem hstored))
    have heq := eq_of_object_eq he hclaim
      (hobject.trans (object_virtualServerResource env c o _ vs).symm)
    rw [heq]
    rfl
  by_cases hkind : ∃ vs, e.1.object = .virtualServer vs
  · obtain ⟨vs, hkind⟩ := hkind
    rw [hvirtual ord e he vs hkind, hvirtual ord' e' he' vs (object_of_frame hframe ▸ hkind)]
    exact bare_virtualServerResource (hroutes vs hkind) _
  · exact bare_of_frame hframe fun vs hvs => hkind ⟨vs, hvs⟩

/-- The VirtualServers that hold their hosts have the same routes in both orders. -/
def SameHeldRoutes (env : Env) (c : Configuration) (ord ord' : Order) : Prop :=
  ∀ (host : String) vs, HoldsHost env c ord host (.virtualServer vs) →
    (buildVirtualServerRoutes env c.virtualServerRoutes ord vs).1 =
      (buildVirtualServerRoutes env c.virtualServerRoutes ord' vs).1

theorem SameHeldRoutes.symm (h : SameHeldRoutes env c ord ord') : SameHeldRoutes env c ord' ord :=
  fun host vs hholds => (h host vs (holdsHost_order hholds)).symm

variable (hok : StoresOk env c)

include hok

theorem exists_newHosts_order (h : SameHeldRoutes env c ord ord') {host : String} {r : Resource}
    (hr : (newHosts env c ord)[host]? = some r) :
    ∃ r', (newHosts env c ord')[host]? = some r' ∧ r'.bare = r.bare := by
  obtain ⟨key, r₀, hkey, hr₀, rfl⟩ := get_newHosts.mp hr
  obtain ⟨r₁, hr₁, hframe⟩ := @frame_resources env c r₀ hok ord ord' key hr₀
  obtain ⟨-, e, he, hbare⟩ := build_resource hok.ingresses hr₀
  obtain ⟨-, e', he', hbare'⟩ := build_resource hok.ingresses hr₁
  have hsame : e.1.bare = e'.1.bare := by
    refine bare_of_claims he he' ?_ fun vs hobject => h host vs ?_
    · rw [← frame_of_bare hbare, ← frame_of_bare hbare', hframe]
    · rw [exists_newHosts_iff hok]
      refine ⟨_, hr, ?_⟩
      rw [object_activate, object_of_bare hbare, hobject]
  have hosts := hosts_order hok ord ord'
  refine ⟨_, get_newHosts.mpr ⟨key, r₁, hosts ▸ hkey, hr₁, rfl⟩, ?_⟩
  rw [bare_activate, bare_activate, hbare, hbare', hsame, hosts]

theorem sameUpToWarnings_order (h : SameHeldRoutes env c ord ord') :
    SameUpToWarnings (newHosts env c ord) (newHosts env c ord') := by
  intro host
  exact map_eq_map_of_exists (fun _ => exists_newHosts_order hok h)
    fun _ => exists_newHosts_order hok h.symm

omit hok in
theorem problemWithoutActiveHost_frame (hosts : GoMap String) (r : Resource) :
    problemWithoutActiveHost hosts r.frame = problemWithoutActiveHost hosts r := by
  cases r <;> rfl

omit hok in
theorem frame_activate (hosts : GoMap String) (r : Resource) :
    (activate hosts r).frame = activate hosts r.frame := by
  cases r <;> rfl

theorem problemsWithoutActiveHost_order (ord ord' : Order) :
    addProblemsForResourcesWithoutActiveHost (buildHostsAndResources env c ord).hosts
        (newResources env c ord) ∅ =
      addProblemsForResourcesWithoutActiveHost (buildHostsAndResources env c ord').hosts
        (newResources env c ord') ∅ := by
  have hframes : ∀ (hosts : GoMap String) (resources : GoMap Resource),
      addProblemsForResourcesWithoutActiveHost hosts resources ∅ =
        ((Table.values resources).map frame).foldl (fun problems r =>
          (problemWithoutActiveHost hosts r).elim problems
            (problems.insert r.getKeyWithKind)) ∅ := by
    intro hosts resources
    rw [foldl_map]
    simp only [problemWithoutActiveHost_frame]
    have hname : ∀ r : Resource, r.frame.getKeyWithKind = r.getKeyWithKind := fun r => by
      cases r <;> rfl
    simp only [hname]
    apply foldl_ext
    intro problems r _
    cases problemWithoutActiveHost hosts r <;> rfl
  have hvalues : (Table.values (newResources env c ord)).map frame =
      (Table.values (newResources env c ord')).map frame := by
    refine Table.map_values_congr fun key => ?_
    have hkey := congrArg (Option.map (activate (buildHostsAndResources env c ord').hosts))
      (map_frame_resources hok ord ord' key)
    unfold newResources updateActiveHostsForIngresses
    simp only [Std.ExtTreeMap.getElem?_map, Option.map_map, Function.comp_def, frame_activate,
      hosts_order hok ord ord'] at hkey ⊢
    exact hkey
  rw [hframes, hframes, hvalues, hosts_order hok ord ord']

omit hok in
theorem map_bare_congr (h : SameUpToWarnings hosts hosts') :
    (hosts.map fun _ r => r.bare) = hosts'.map fun _ r => r.bare :=
  Std.ExtTreeMap.ext_getElem? fun host => by
    rw [Std.ExtTreeMap.getElem?_map, Std.ExtTreeMap.getElem?_map, h host]

omit hok in
theorem hasMaster_congr (h : SameUpToWarnings hosts hosts') (host : String) :
    hasMaster hosts host = hasMaster hosts' host := by
  have hbare : ∀ t : GoMap Resource,
      hasMaster t host = hasMaster (t.map fun _ r => r.bare) host := by
    intro t
    unfold hasMaster
    rw [Std.ExtTreeMap.getElem?_map]
    rcases t[host]? with _ | _ | _ | _ <;> rfl
  rw [hbare hosts, hbare hosts', map_bare_congr h]

omit hok in
theorem problemOfVsr_congr (h : SameUpToWarnings hosts hosts') (vsr : VirtualServerRoute) :
    problemOfVsr hosts vsr = problemOfVsr hosts' vsr := by
  have hbare : ∀ t : GoMap Resource,
      problemOfVsr t vsr = problemOfVsr (t.map fun _ r => r.bare) vsr := by
    intro t
    unfold problemOfVsr
    rw [Std.ExtTreeMap.getElem?_map]
    rcases t[vsr.spec.host]? with _ | _ | _ | _ <;> rfl
  rw [hbare hosts, hbare hosts', map_bare_congr h]

theorem newHostProblems_order (h : SameHeldRoutes env c ord ord') :
    newHostProblems env c ord = newHostProblems env c ord' := by
  have hsame := sameUpToWarnings_order hok h
  unfold newHostProblems addProblemsForOrphanOrIgnoredVsrs addProblemsForOrphanMinions
  rw [problemsWithoutActiveHost_order hok ord ord']
  simp only [hasMaster_congr hsame, problemOfVsr_congr hsame]

end SameRoutes

/-! ## Tables without changes -/

section NoChanges

theorem detectChangesInProblems_self (problems : GoMap ConfigurationProblem) :
    detectChangesInProblems problems problems = [] := by
  unfold detectChangesInProblems
  rw [filterMap_eq_nil_iff]
  rintro ⟨key, problem⟩ he
  simp [Std.ExtTreeMap.mem_toList_iff_getElem?_eq_some.mp he, compareConfigurationProblems]

theorem all_zip_self {α : Type} (l : List α) {f : α × α → Bool} (h : ∀ a, f (a, a) = true) :
    (l.zip l).all f = true := by
  induction l with
  | nil => rfl
  | cons a l ih => simp [h, ih]

theorem selectorsEqual_self (selectors : GoMap (List String)) :
    selectorsEqual selectors selectors = true := by
  simp only [selectorsEqual, decide_true, Bool.true_and, all_eq_true]
  rintro ⟨selector, keys⟩ he
  simp [Std.ExtTreeMap.mem_toList_iff_getElem?_eq_some.mp he]

theorem compareObjectMetasWithAnnotations_self (m : ObjectMeta) :
    compareObjectMetasWithAnnotations m m = true := by
  simp [compareObjectMetasWithAnnotations, compareObjectMetas_iff]

theorem Resource.isEqual_self (r : Resource) : r.isEqual r = true := by
  cases r with
  | ingress ic =>
    have hminions : (ic.minions.zip ic.minions).all (fun m =>
        compareObjectMetasWithAnnotations m.1.ingress.objectMeta m.2.ingress.objectMeta) = true :=
      all_zip_self _ fun m => compareObjectMetasWithAnnotations_self _
    simp only [isEqual, IngressConfiguration.isEqual, hminions,
      compareObjectMetasWithAnnotations_self, decide_true, Bool.and_self]
  | virtualServer vsc =>
    have hroutes : (vsc.virtualServerRoutes.zip vsc.virtualServerRoutes).all (fun r =>
        compareObjectMetas r.1.objectMeta r.2.objectMeta) = true :=
      all_zip_self _ fun r => by simp [compareObjectMetas_iff]
    simp [Resource.isEqual, VirtualServerConfiguration.isEqual, hroutes, selectorsEqual_self,
      compareObjectMetas_iff]
  | transportServer tsc =>
    simp [isEqual, TransportServerConfiguration.isEqual, compareObjectMetas_iff]

theorem hostUpdates_of_bare {r r' : Resource} (h : r.bare = r'.bare) (host : String) :
    hostUpdates host r r' = [] := by
  have hbare : hostUpdates host r r' = hostUpdates host r.bare r'.bare := by
    cases r <;> cases r' <;> rfl
  have hself : ∀ x : Resource, hostUpdates host x x = [] := by
    intro x
    have hequal := x.isEqual_self
    cases x <;> simp [hostUpdates, hequal]
  rw [hbare, h, hself]

theorem detectChangesInHosts_same (h : SameUpToWarnings hosts hosts') :
    detectChangesInHosts hosts hosts' = ⟨[], [], []⟩ := by
  have hremoved : (detectChangesInHosts hosts hosts').removed = [] := by
    rw [eq_nil_iff_forall_not_mem]
    intro host hin
    obtain ⟨⟨r, hr⟩, hnone⟩ := mem_removed.mp hin
    obtain ⟨r', hr', -⟩ := h.get hr
    rw [hnone] at hr'
    cases hr'
  have hupdated : (detectChangesInHosts hosts hosts').updated = [] := by
    rw [eq_nil_iff_forall_not_mem]
    intro host hin
    obtain ⟨r, r', hr, hr', hne⟩ := mem_updated.mp hin
    obtain ⟨r'', hr'', hbare⟩ := h.get hr
    rw [hr', Option.some.injEq] at hr''
    exact hne (hostUpdates_of_bare (hr'' ▸ hbare) host)
  have hadded : (detectChangesInHosts hosts hosts').added = [] := by
    rw [eq_nil_iff_forall_not_mem]
    intro host hin
    obtain ⟨hnone, r', hr'⟩ := mem_added.mp hin
    obtain ⟨r, hr, -⟩ := h.symm.get hr'
    rw [hnone] at hr
    cases hr
  exact TableChanges.ext hremoved hupdated hadded

end NoChanges

/-! ## Rebuilding the hosts again -/

section Hosts

variable {env : Env} {c : Configuration} {ord ord' : Order} (hok : StoresOk env c)

include hok

theorem rebuildHosts_again (h : SameHeldRoutes env c ord ord') :
    (rebuildHosts env (rebuildHosts env c ord).1 ord').2 = ([], []) := by
  have hinputs := (sameStores_rebuildHosts env ord c).hostInputs env
  have hsame : SameUpToWarnings (rebuildHosts env c ord).1.hosts
      (newHosts env (rebuildHosts env c ord).1 ord') := by
    rw [newHosts_congr hinputs]
    intro host
    rw [sameUpToWarnings_rebuildHosts env c ord host, sameUpToWarnings_order hok h host]
  have hproblems : newHostProblems env (rebuildHosts env c ord).1 ord' =
      (rebuildHosts env c ord).1.hostProblems := by
    rw [(rebuildHosts_congr hinputs ord').2, ← newHostProblems_order hok h]
    rfl
  refine Prod.ext ?_ ?_
  · change referToLatest _ (squashResourceChanges _ (createResourceChangesForHosts
      (detectChangesInHosts _ _) _ _)) = []
    rw [detectChangesInHosts_same hsame]
    rfl
  · change detectChangesInProblems _ _ = []
    rw [hproblems]
    exact detectChangesInProblems_self _

omit hok in
/-- The comparison of the metadata, position by position. -/
theorem keys_of_compare {vsrs vsrs' : List VirtualServerRoute}
    (hlength : vsrs.length = vsrs'.length)
    (h : (vsrs.zip vsrs').all (fun (r, r') => compareObjectMetas r.objectMeta r'.objectMeta) =
      true) : vsrs.map objectKey = vsrs'.map objectKey := by
  rw [map_eq_iff_zip hlength]
  intro p hp
  obtain ⟨hns, hname, -⟩ := compareObjectMetas_iff.mp (all_eq_true.mp h p hp)
  exact getResourceKey_inj.mpr ⟨hns, hname⟩

omit hok in
/-- Attached routes are stored, so their keys determine them. -/
theorem attached_of_keys
    (h : (attached env c ord vs).map objectKey = (attached env c ord' vs).map objectKey) :
    attached env c ord vs = attached env c ord' vs := by
  have hstored : ∀ o, attached env c o vs = ((attached env c o vs).map objectKey).filterMap
        c.virtualServerRoutes.get := by
    intro o
    rw [filterMap_map]
    exact ((filterMap_congr fun v hv => stored_of_attached hv).trans filterMap_some).symm
  rw [hstored ord, hstored ord', h]

theorem sameHeldRoutes_of_noChanges
    (h : (rebuildHosts env (rebuildHosts env c ord).1 ord').2.1 = []) :
    SameHeldRoutes env c ord ord' := by
  intro host vs hholds
  obtain ⟨r, hr, hobject⟩ := (holdsHost_iff hok).mp hholds
  have hholds' : HoldsHost env c ord' host (.virtualServer vs) := holdsHost_order hholds
  obtain ⟨r', hr', hobject'⟩ := (exists_newHosts_iff hok).mp hholds'
  have hbuilt := builtFrom_rebuildHosts hok hr
  have hbuilt' := builtFrom_newHosts hok hr'
  rw [← newHosts_congr ((sameStores_rebuildHosts env ord c).hostInputs env)] at hr'
  -- an update of the host would be a change
  have hnot : host ∉ (detectChangesInHosts (rebuildHosts env c ord).1.hosts
      (newHosts env (rebuildHosts env c ord).1 ord')).updated :=
    notMem_updated_of_nil (map_eq_nil_iff.mp h) hr'
  obtain ⟨-, hequal⟩ := isEqual_of_not_updated hr hr' hnot
  cases r with
  | virtualServer vsc =>
    cases r' with
    | virtualServer vsc' =>
      have hvs : vsc.virtualServer = vs := ConfigurationObject.virtualServer.inj hobject
      have hvs' : vsc'.virtualServer = vs := ConfigurationObject.virtualServer.inj hobject'
      simp only [Resource.isEqual, VirtualServerConfiguration.isEqual, Bool.and_eq_true,
        decide_eq_true_eq] at hequal
      have hkeys := keys_of_compare hequal.1.1.2 hequal.1.2
      rw [routes_of_builtFrom hbuilt, routes_of_builtFrom hbuilt', hvs, hvs', routesOf, routesOf,
        map_append, map_append] at hkeys
      exact attached_of_keys (append_cancel_right hkeys)
    | _ => cases hobject'
  | _ => cases hobject

end Hosts

/-! ## Rebuilding the listeners again -/

section Listeners

variable {c : Configuration} {ord ord' : Order}

/-- Nobody who claims the place is older, and nobody else is as old. -/
def OldestAlone (c : Configuration) : Prop :=
  ∀ (place : ListenerHostKey) ts l ts' l', ClaimsPlace c ts l place → ClaimsPlace c ts' l' place →
    ts.objectMeta.age = ts'.objectMeta.age →
    (∀ ts'' l'', ClaimsPlace c ts'' l'' place → ts.objectMeta.age ≤ ts''.objectMeta.age) → ts = ts'

theorem mem_claimants_listener {place : ListenerHostKey} {tsc : TransportServerConfiguration} :
    tsc ∈ claimants place (listenerClaims c ord) ↔
      ∃ ts l, ClaimsPlace c ts l place ∧
        tsc = TransportServerConfiguration.listen { transportServer := ts } l := by
  simp only [claimants, mem_map, mem_filter, decide_eq_true_eq]
  constructor
  · rintro ⟨e, ⟨he, hplace⟩, rfl⟩
    obtain ⟨ts, hts, hclaim⟩ := claim_of_mem c ord he
    obtain ⟨-, hregular, hplaces⟩ := listenerClaim_spec c hclaim
    obtain ⟨l, hl, hat, hlisten⟩ := (hplaces place).mp hplace
    exact ⟨ts, l, ⟨hts, hregular, hl, hat⟩, hlisten⟩
  · rintro ⟨ts, l, hclaims, rfl⟩
    refine ⟨(_, [place]), ⟨mem_of_claim c ord hclaims.stored ?_, by simp⟩, rfl⟩
    simp [listenerClaim, hclaims.regular, hclaims.listener, hclaims.place_eq]
    rfl

theorem listenerClaims_perm (c : Configuration) (ord ord' : Order) :
    (listenerClaims c ord).Perm (listenerClaims c ord') :=
  ((ord.perm _ _).trans (ord'.perm _ _).symm).filterMap _

theorem champion_listener (h : OldestAlone c) (ord ord' : Order) (place : ListenerHostKey) :
    champion listenerContest.rank (claimants place (listenerClaims c ord)) =
      champion listenerContest.rank (claimants place (listenerClaims c ord')) := by
  refine champion_perm_of_least _
    (((listenerClaims_perm c ord ord').filter _).map _) fun x hx y hy hage hleast => ?_
  obtain ⟨ts, l, hts, rfl⟩ := mem_claimants_listener.mp hx
  obtain ⟨ts', l', hts', rfl⟩ := mem_claimants_listener.mp hy
  have heq : ts = ts' := h place ts l ts' l' hts hts' hage fun ts'' l'' hts'' =>
    hleast _ (mem_claimants_listener.mpr ⟨ts'', l'', hts'', rfl⟩)
  subst heq
  rw [hts.listener.symm.trans hts'.listener |> Option.some.inj]

theorem map_bare_tsConfigs (c : Configuration) (ord ord' : Order) (key : String) :
    (buildListenerHostsAndTSConfigurations c ord).tsConfigs[key]?.map
        TransportServerConfiguration.bare =
      (buildListenerHostsAndTSConfigurations c ord').tsConfigs[key]?.map
        TransportServerConfiguration.bare := by
  have hget : ∀ o o' (tsc : TransportServerConfiguration),
      (buildListenerHostsAndTSConfigurations c o).tsConfigs[key]? = some tsc →
      ∃ tsc', (buildListenerHostsAndTSConfigurations c o').tsConfigs[key]? = some tsc' ∧
        tsc'.bare = tsc.bare := fun o o' tsc htsc =>
    (settled_listeners c o).contenders_eq (fun _ _ h => h) (fun _ _ => listenerContest.name_core)
      (settled_listeners c o') ((listenerClaims_perm c o o').map _).subset htsc
  exact map_eq_map_of_exists (hget ord ord') (hget ord' ord)

theorem map_bare_newListenerHosts (h : OldestAlone c) (ord ord' : Order) :
    ((newListenerHosts c ord).map fun _ tsc => tsc.bare) =
      (newListenerHosts c ord').map fun _ tsc => tsc.bare := by
  apply Std.ExtTreeMap.ext_getElem?
  intro place
  have hholder : (buildListenerHostsAndTSConfigurations c ord).listenerHosts[place]? =
      (buildListenerHostsAndTSConfigurations c ord').listenerHosts[place]? := by
    have hheld := (settled_listeners c ord).holder place
    rw [champion_listener h ord ord' place, ← (settled_listeners c ord').holder place] at hheld
    exact hheld
  simp only [newListenerHosts, resolveListenerHosts, Std.ExtTreeMap.getElem?_map,
    Table.get_filterMap, hholder]
  cases (buildListenerHostsAndTSConfigurations c ord').listenerHosts[place]? with
  | none => rfl
  | some key => exact map_bare_tsConfigs c ord ord' key

variable {t t' : Table ListenerHostKey TransportServerConfiguration}

theorem get_map_bare (h : (t.map fun _ tsc => tsc.bare) = t'.map fun _ tsc => tsc.bare)
    (place : ListenerHostKey) : t[place]?.map TransportServerConfiguration.bare =
      t'[place]?.map TransportServerConfiguration.bare := by
  have hplace := congrArg (fun m => m[place]?) h
  simpa only [Std.ExtTreeMap.getElem?_map] using hplace

theorem isEqual_of_bare {tsc tsc' holder holder' : TransportServerConfiguration}
    (h : tsc.bare = tsc'.bare) (hholder : holder.bare = holder'.bare) :
    tsc.isEqual holder = tsc'.isEqual holder' := by
  change tsc.bare.isEqual holder.bare = tsc'.bare.isEqual holder'.bare
  rw [h, hholder]

theorem detectChangesInListenerHosts_same
    (h : (t.map fun _ tsc => tsc.bare) = t'.map fun _ tsc => tsc.bare) :
    detectChangesInListenerHosts t t' = ⟨[], [], []⟩ := by
  have hnone : ∀ place : ListenerHostKey, t[place]? = none ↔ t'[place]? = none := fun place => by
    rw [← Option.map_eq_none_iff (f := TransportServerConfiguration.bare), get_map_bare h place,
      Option.map_eq_none_iff]
  have hremoved : (detectChangesInListenerHosts t t').removed = [] := by
    refine filter_eq_nil_iff.mpr fun place hin hgone => ?_
    obtain ⟨tsc, htsc⟩ := Table.mem_keys_iff.mp hin
    rw [(hnone place).mpr (Option.isNone_iff_eq_none.mp hgone)] at htsc
    cases htsc
  have hadded : (detectChangesInListenerHosts t t').added = [] := by
    refine filter_eq_nil_iff.mpr fun place hin hnew => ?_
    obtain ⟨tsc, htsc⟩ := Table.mem_keys_iff.mp hin
    rw [(hnone place).mp (Option.isNone_iff_eq_none.mp hnew)] at htsc
    cases htsc
  have hupdated : (detectChangesInListenerHosts t t').updated = [] := by
    refine filterMap_eq_nil_iff.mpr fun e he => ?_
    obtain ⟨place, new⟩ := e
    have hnew : t'[place]? = some new := Std.ExtTreeMap.mem_toList_iff_getElem?_eq_some.mp he
    cases hold : t[place]? with
    | none => simp [hold]
    | some old =>
      have hbare := get_map_bare h place
      rw [hold, hnew, Option.map_some, Option.map_some, Option.some.injEq] at hbare
      have hequal : old.isEqual new = true := by
        rw [isEqual_of_bare hbare rfl]
        exact (transportServer new).isEqual_self
      simp [hold, hequal]
  exact TableChanges.ext hremoved hupdated hadded

theorem problemWithoutActiveListener_bare
    (h : (t.map fun _ tsc => tsc.bare) = t'.map fun _ tsc => tsc.bare)
    (tsc : TransportServerConfiguration) :
    problemWithoutActiveListener t tsc = problemWithoutActiveListener t' tsc.bare := by
  have hplace := get_map_bare h
    ⟨tsc.transportServer.spec.listener.name, tsc.transportServer.spec.host⟩
  unfold problemWithoutActiveListener
  simp only [show tsc.bare.transportServer = tsc.transportServer from rfl]
  cases held : t[(⟨tsc.transportServer.spec.listener.name,
      tsc.transportServer.spec.host⟩ : ListenerHostKey)]? with
  | none =>
    rw [held, Option.map_none, eq_comm, Option.map_eq_none_iff] at hplace
    rw [hplace]
  | some holder =>
    rw [held, Option.map_some, eq_comm, Option.map_eq_some_iff] at hplace
    obtain ⟨holder', hholder', hbare⟩ := hplace
    have hequal : tsc.isEqual holder = tsc.bare.isEqual holder' := isEqual_of_bare rfl hbare.symm
    simp only [hholder', hequal]

theorem newListenerProblems_order (h : OldestAlone c) (ord ord' : Order) :
    newListenerProblems c ord = newListenerProblems c ord' := by
  have hmap := map_bare_newListenerHosts h ord ord'
  have hbare : ∀ o, newListenerProblems c o =
      ((Table.values (buildListenerHostsAndTSConfigurations c o).tsConfigs).map
        TransportServerConfiguration.bare).foldl (fun problems tsc =>
          (problemWithoutActiveListener (newListenerHosts c ord') tsc).elim problems
            (problems.insert (Resource.transportServer tsc).getKeyWithKind)) ∅ := by
    intro o
    rw [foldl_map]
    unfold newListenerProblems addProblemsForTSConfigsWithoutActiveListener
    simp only [problemWithoutActiveListener_bare (map_bare_newListenerHosts h o ord')]
    apply foldl_ext
    intro problems tsc _
    cases problemWithoutActiveListener (newListenerHosts c ord') tsc.bare <;> rfl
  rw [hbare, hbare, Table.map_values_congr (map_bare_tsConfigs c ord ord')]

theorem rebuildListenerHosts_again (h : OldestAlone c) (ord ord' : Order) :
    (rebuildListenerHosts (rebuildListenerHosts c ord).1 ord').2 = ([], []) := by
  refine Prod.ext ?_ ?_
  · change referToLatest _ (squashResourceChanges _ (createResourceChangesForListeners
      (detectChangesInListenerHosts (newListenerHosts c ord) (newListenerHosts c ord')) _ _)) = []
    rw [detectChangesInListenerHosts_same (map_bare_newListenerHosts h ord ord')]
    rfl
  · change detectChangesInProblems (newListenerProblems c ord') (newListenerProblems c ord) = []
    rw [newListenerProblems_order h ord ord']
    exact detectChangesInProblems_self _

theorem oldestAlone_of_noChanges
    (h : ∀ ord ord', (rebuildListenerHosts (rebuildListenerHosts c ord).1 ord').2.1 = []) :
    OldestAlone c := by
  intro place ts l ts' l' hts hts' hage hleast
  obtain ⟨ord, tsc, htsc, hholds⟩ := exists_order_holding hts fun ts'' l'' hts'' =>
    not_lt.mpr (hleast ts'' l'' hts'')
  obtain ⟨ord', tsc', htsc', hholds'⟩ := exists_order_holding hts' fun ts'' l'' hts'' =>
    not_lt.mpr (hage ▸ hleast ts'' l'' hts'')
  have hlog := h ord ord'
  rw [rebuildListenerHosts_changes] at hlog
  have hnot := notMem_updated_of_nil hlog (get_listenerResources.mpr ⟨tsc', htsc', rfl⟩)
  have hequal := isEqual_of_not_updated_listener htsc htsc' hnot
  simp only [TransportServerConfiguration.isEqual, Bool.and_eq_true] at hequal
  obtain ⟨hns, hname, -⟩ := compareObjectMetas_iff.mp hequal.1
  have hkey : objectKey ts = objectKey ts' := by
    rw [← hholds, ← hholds']
    exact getResourceKey_inj.mpr ⟨hns, hname⟩
  have hstored := hts.stored
  rw [hkey, hts'.stored] at hstored
  exact (Option.some.inj hstored).symm

end Listeners

/-! ## Order and repetition -/

def servingSubroute (vsrs : List VirtualServerRoute) (path : String) :
    Option (VirtualServerRoute × Route) :=
  (subroutesOf vsrs).find? fun e => normalizePath e.2.path = path

/-- A second rebuild has nothing to report, whatever the orders of the two, and no order attaches
other routes. -/
structure Stable (env : Env) (c : Configuration) : Prop where
  hosts : ∀ ord ord', (rebuildHosts env (rebuildHosts env c ord).1 ord').2 = ([], [])
  listeners : ∀ ord ord', (rebuildListenerHosts (rebuildListenerHosts c ord).1 ord').2 = ([], [])
  routes : ∀ vs, Stored c (.virtualServer vs) → ∀ ord ord',
    (∀ v, v ∈ (buildVirtualServerRoutes env c.virtualServerRoutes ord vs).1 ↔
      v ∈ (buildVirtualServerRoutes env c.virtualServerRoutes ord' vs).1) ∧
    ∀ path, servingSubroute (buildVirtualServerRoutes env c.virtualServerRoutes ord vs).1 path =
      servingSubroute (buildVirtualServerRoutes env c.virtualServerRoutes ord' vs).1 path

/-- A selector finds no routes that compete for a path, and a VirtualServer that holds its host
keeps at most one of them. One TransportServer alone is the oldest at its place. -/
structure OrderFree (env : Env) (c : Configuration) : Prop where
  competitors : ∀ vs, Stored c (.virtualServer vs) →
    AtBlocks NoCompetitors (routeBlocks env c.virtualServerRoutes vs .asGiven)
  held : ∀ (host : String) vs, HoldsHost env c .asGiven host (.virtualServer vs) →
    AtBlocks OneStays (routeBlocks env c.virtualServerRoutes vs .asGiven)
  listeners : OldestAlone c

theorem find?_key_iff {α β : Type} [DecidableEq β] {f : α → β} {l : List α}
    (hnodup : (l.map f).Nodup) {b : β} {a : α} :
    (l.find? fun a => f a = b) = some a ↔ a ∈ l ∧ f a = b := by
  constructor
  · intro h
    exact ⟨mem_of_find?_eq_some h, by simpa using find?_some h⟩
  rintro ⟨ha, rfl⟩
  cases hfind : l.find? fun a' => f a' = f a with
  | none => simpa using find?_eq_none.mp hfind a ha
  | some a' =>
    have hkey : f a' = f a := by simpa using find?_some hfind
    rw [inj_on_of_nodup_map hnodup (mem_of_find?_eq_some hfind) ha hkey]

/-- Paths are distinct, so the attached routes determine who serves a path. -/
theorem servingSubroute_congr {env : Env} {routes : Store VirtualServerRoute} {ord ord' : Order}
    (h : ∀ v, v ∈ (buildVirtualServerRoutes env routes ord vs).1 ↔
      v ∈ (buildVirtualServerRoutes env routes ord' vs).1)
    (path : String) : servingSubroute (buildVirtualServerRoutes env routes ord vs).1 path =
      servingSubroute (buildVirtualServerRoutes env routes ord' vs).1 path := by
  apply Option.ext
  intro e
  unfold servingSubroute
  rw [find?_key_iff (nodup_subroutes_attached env routes vs ord),
    find?_key_iff (nodup_subroutes_attached env routes vs ord'), mem_subroutesOf,
    mem_subroutesOf, h]

/-- Rebuilding is idempotent and independent of the order exactly without the ties. -/
theorem rebuild_stable_iff {env : Env} {c : Configuration} (h : Reachable env c) :
    Stable env c ↔ OrderFree env c := by
  have hok := h.tablesOk.stores
  constructor
  · intro hstable
    refine ⟨fun vs hvs => ?_, fun host vs hholds => ?_, ?_⟩
    · exact attached_members_iff.mp fun ord ord' => (hstable.routes vs hvs ord ord').1
    · have hsame := attached_eq_iff.mp fun ord ord' =>
        sameHeldRoutes_of_noChanges hok (congrArg Prod.fst (hstable.hosts ord ord')) host vs
          (holdsHost_order hholds)
      exact fun before block after heq => (hsame before block after heq).2
    · exact oldestAlone_of_noChanges fun ord ord' => congrArg Prod.fst (hstable.listeners ord ord')
  · intro hfree
    have hmembers : ∀ vs, Stored c (.virtualServer vs) → ∀ ord ord' v,
        v ∈ attached env c ord vs ↔ v ∈ attached env c ord' vs :=
      fun vs hvs => attached_members_iff.mpr (hfree.competitors vs hvs)
    refine ⟨fun ord ord' => rebuildHosts_again hok fun host vs hholds => ?_,
      rebuildListenerHosts_again hfree.listeners, fun vs hvs ord ord' =>
        ⟨hmembers vs hvs ord ord', servingSubroute_congr (hmembers vs hvs ord ord')⟩⟩
    have hvs : Stored c (.virtualServer vs) := by
      obtain ⟨r, hr, hobject⟩ := (exists_newHosts_iff hok).mp hholds
      have hclaims := claimsHost_newHosts hok.ingresses hr
      rw [hobject] at hclaims
      exact hclaims.1
    exact attached_eq_iff.mpr (fun before block after heq =>
      ⟨hfree.competitors vs hvs before block after heq,
        hfree.held host vs (holdsHost_order hholds) before block after heq⟩) ord ord'

/-! ## A selector with two routes -/

/-- Every route of the cafe is taken by its label. -/
def labelledCafe : VirtualServer where
  objectMeta := { nspace := .of "default", name := .of "cafe" }
  spec := {
    host := "cafe.example.com"
    routes := [{
      path := "/"
      routeSelector := some { matchLabels := (∅ : GoMap String).insert "app" "cafe" } }] }

def labelledRoute (app : String) (name : ResourceName) (path : String) : VirtualServerRoute where
  objectMeta := {
    nspace := .of "default", name, labels := (∅ : GoMap String).insert "app" app }
  spec := {
    host := "cafe.example.com"
    upstreams := [{ name := "backend", service := "backend-svc", port := 80 }]
    subroutes := [{ path, action := some { pass := "backend" } }] }

def coffeeRoute : VirtualServerRoute := labelledRoute "cafe" (.of "coffee") "/coffee"

def teaRoute : VirtualServerRoute := labelledRoute "cafe" (.of "tea") "/tea"

def withLabelledRoutes (vs : VirtualServer) (vsrs : List VirtualServerRoute) : Configuration :=
  Op.runs ((Env.permissive false).validatedBy plainValidator) {} (
    vsrs.map (fun vsr => (.asGiven, .api (.addOrUpdateVirtualServerRoute vsr))) ++ [
    (.asGiven, .api (.addOrUpdateVirtualServer vs)),
    (.asGiven, .api (.addOrUpdateGlobalConfiguration tcpListeners)),
    (.asGiven, .api (.addOrUpdateTransportServer youngTcpApp)),
    (.asGiven, .api (.addOrUpdateTransportServer oldTcpApp)),
    (.asGiven, .completeStartup)])

/-- The cafe with a second selector. -/
def drinksCafe : VirtualServer where
  objectMeta := labelledCafe.objectMeta
  spec := { labelledCafe.spec with
    routes := labelledCafe.spec.routes ++ [{
      path := "/drinks"
      routeSelector := some { matchLabels := (∅ : GoMap String).insert "app" "drinks" } }] }

def milkRoute : VirtualServerRoute := labelledRoute "cafe" (.of "milk") "/drinks/milk"

def juiceRoute : VirtualServerRoute := labelledRoute "drinks" (.of "juice") "/drinks/juice"

def oatMilkRoute : VirtualServerRoute := labelledRoute "drinks" (.of "oat-milk") "/drinks/milk"

/-- The second selector finds two routes, but the path of one is taken by the first selector. One
of the two TransportServers is older. -/
theorem rebuild_stable_iff_drinks :
    let env := (Env.permissive false).validatedBy plainValidator
    let c := withLabelledRoutes drinksCafe [milkRoute, juiceRoute, oatMilkRoute]
    routeBlocks env c.virtualServerRoutes drinksCafe .asGiven =
      [[milkRoute], [juiceRoute, oatMilkRoute]] ∧ Stable env c := by
  intro env c
  have hreach : Reachable env c := Reachable.init.runs _
  have hblocks : routeBlocks env c.virtualServerRoutes drinksCafe .asGiven =
      [[milkRoute], [juiceRoute, oatMilkRoute]] := by decide +kernel
  have hstored : ∀ vs, Stored c (.virtualServer vs) → vs = drinksCafe := by
    intro vs hvs
    have hget : (Store.empty.put drinksCafe).get (objectKey vs) = some vs := hvs
    rw [Store.get_put] at hget
    split at hget
    · exact (Option.some.inj hget).symm
    · simp at hget
  refine ⟨hblocks, (rebuild_stable_iff hreach).mpr ⟨fun vs hvs => ?_, fun host vs hholds => ?_, ?_⟩⟩
  · rw [hstored vs hvs, hblocks, atBlocks_cons, atBlocks_cons]
    unfold NoCompetitors Isolated
    exact ⟨by decide +kernel, by decide +kernel, atBlocks_nil _⟩
  · obtain ⟨r, hr, hobject⟩ := (exists_newHosts_iff hreach.tablesOk.stores).mp hholds
    have hclaims := claimsHost_newHosts hreach.tablesOk.stores.ingresses hr
    rw [hobject] at hclaims
    rw [hstored vs hclaims.1, hblocks, atBlocks_cons, atBlocks_cons]
    unfold OneStays
    exact ⟨by decide +kernel, by decide +kernel, atBlocks_nil _⟩
  · intro place ts l ts' l' hts hts' hage _
    have hserver : ∀ {ts}, c.transportServers.get (objectKey ts) = some ts →
        ts = oldTcpApp ∨ ts = youngTcpApp := by
      intro ts hget
      have hget : ((Store.empty.put youngTcpApp).put oldTcpApp).get (objectKey ts) = some ts := hget
      simp only [Store.get_put, Store.get_empty] at hget
      split at hget
      · exact .inl (Option.some.inj hget).symm
      · split at hget
        · exact .inr (Option.some.inj hget).symm
        · cases hget
    have hdiffer : oldTcpApp.objectMeta.age ≠ youngTcpApp.objectMeta.age := by decide
    obtain rfl | rfl := hserver hts.stored <;> obtain rfl | rfl := hserver hts'.stored
    · rfl
    · exact absurd hage hdiffer
    · exact absurd hage.symm hdiffer
    · rfl

def backwards : Order where
  visit _ keys := keys.reverse
  perm _ keys := reverse_perm keys

/-- Nothing changed, and the loop over the stored routes visits them the other way round. -/
theorem second_rebuild_reports_change :
    let env := (Env.permissive false).validatedBy plainValidator
    let c := withLabelledRoutes labelledCafe [coffeeRoute, teaRoute]
    Reachable env c ∧ ¬ Stable env c ∧
      (rebuildHosts env c backwards).2.1.map (fun change => (change.op, change.resource.object)) =
        [(.addOrUpdate, .virtualServer labelledCafe)] := by
  have hreach : Reachable ((Env.permissive false).validatedBy plainValidator)
      (withLabelledRoutes labelledCafe [coffeeRoute, teaRoute]) := Reachable.init.runs _
  refine ⟨hreach, fun h => ?_, by decide +kernel⟩
  have hchanges := congrArg Prod.fst (h.hosts .asGiven backwards)
  revert hchanges
  decide +kernel

end IngressController
