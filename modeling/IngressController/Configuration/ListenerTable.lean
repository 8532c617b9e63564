import IngressController.Configuration.HostTable
import IngressController.Configuration.Listeners

/-! # The rebuilt listener table

Building the listener hosts is an arbitration as well. Every holder is a stored
TransportServer that is not for TLS passthrough, at the one place it asks for.
-/

namespace IngressController

open Arbitration TransportServerConfiguration List

def TransportServerConfiguration.bare (tsc : TransportServerConfiguration) :
    TransportServerConfiguration :=
  { tsc with warnings := [] }

namespace Configuration

theorem transportServer_of_bare {a b : TransportServerConfiguration} (h : a.bare = b.bare) :
    a.transportServer = b.transportServer := by
  have hts := congrArg transportServer h
  exact hts

def placeTaken (place : ListenerHostKey) : String :=
  "listener " ++ place.listenerName ++ " and host " ++ place.host ++
    " are taken by another resource"

def listenerContest : Contest ListenerHostKey TransportServerConfiguration
    (ℤ ×ₗ Stringᵒᵈ) TransportServerConfiguration String where
  name tsc := objectKey tsc.transportServer
  rank tsc := tsc.transportServer.objectMeta.age
  core := bare
  note := placeTaken
  notes := warnings
  lose place := addWarning (placeTaken place)
  name_core h := congrArg objectKey (transportServer_of_bare h)
  rank_core h := congrArg (fun ts : TransportServer => ts.objectMeta.age)
    (transportServer_of_bare h)
  core_lose _ _ := rfl
  notes_lose _ _ := rfl

def ListenerBuild.contest (b : ListenerBuild) :
    State ListenerHostKey TransportServerConfiguration :=
  ⟨b.listenerHosts, b.tsConfigs⟩

theorem ListenerBuild.contest_claimPlace (tsc : TransportServerConfiguration)
    (place : ListenerHostKey) (b : ListenerBuild) :
    (b.claimPlace tsc.transportServer place).contest =
      claim listenerContest tsc b.contest place := by
  unfold ListenerBuild.claimPlace claim ListenerBuild.contest
  cases b.listenerHosts[place]? with
  | none => rfl
  | some holder =>
    cases hh : b.tsConfigs[holder]? with
    | none => simp [hh, ListenerBuild.warn, listenerContest, placeTaken]
    | some h =>
      have hwins : chooseObjectMetaWinner h.transportServer.objectMeta
          tsc.transportServer.objectMeta =
          decide (h.transportServer.objectMeta.age < tsc.transportServer.objectMeta.age) := by
        rw [Bool.eq_iff_iff, decide_eq_true_iff]
        exact chooseObjectMetaWinner_iff
      simp only [hh, hwins]
      by_cases hage : h.transportServer.objectMeta.age < tsc.transportServer.objectMeta.age <;>
        simp [hage, ListenerBuild.warn, listenerContest, placeTaken]

variable {ts : TransportServer}

section Claims

variable (c : Configuration) (ord : Order)

/-- What a TransportServer claims; none for TLS passthrough. -/
def listenerClaim (ts : TransportServer) :
    Option (TransportServerConfiguration × List ListenerHostKey) :=
  if ts.spec.listener.protocol = tlsPassthroughListenerProtocol then none
  else
    match findListener c ts with
    | none => some ({ transportServer := ts }, [])
    | some listener => some (listen { transportServer := ts } listener,
        [⟨listener.name, ts.spec.host⟩])

def listenerClaims : List (TransportServerConfiguration × List ListenerHostKey) :=
  (ord.visit .transportServers c.transportServers.sortedKeys).filterMap fun key =>
    (c.transportServers.get key).bind (listenerClaim c)

theorem ListenerBuild.contest_addTransportServer (b : ListenerBuild) (key : String) :
    (b.addTransportServer c key).contest =
      match (c.transportServers.get key).bind (listenerClaim c) with
      | none => b.contest
      | some e => enter listenerContest b.contest e := by
  unfold ListenerBuild.addTransportServer
  cases hts : c.transportServers.get key with
  | none => rfl
  | some ts =>
    have hkey : objectKey ts = key := Store.key_of_get hts
    by_cases hp : ts.spec.listener.protocol = tlsPassthroughListenerProtocol
    · simp [hp, listenerClaim]
    cases hl : findListener c ts with
    | none =>
      simp [hp, hl, listenerClaim, enter, ListenerBuild.contest, listenerContest, hkey]
    | some listener =>
      simp only [hp, hl, listenerClaim, Option.bind_some, if_false, enter, foldl_cons, foldl_nil]
      subst hkey
      exact ListenerBuild.contest_claimPlace (listen { transportServer := ts } listener) _ _

theorem contest_buildListenerHosts :
    (buildListenerHostsAndTSConfigurations c ord).contest =
      run listenerContest (listenerClaims c ord) := by
  unfold buildListenerHostsAndTSConfigurations listenerClaims run
  induction ord.visit .transportServers c.transportServers.sortedKeys using reverseRecOn with
  | nil => rfl
  | append_singleton keys key ih =>
    rw [foldl_append, foldl_cons, foldl_nil,
      ListenerBuild.contest_addTransportServer, ih, filterMap_append, foldl_append]
    cases hclaim : (c.transportServers.get key).bind (listenerClaim c) <;> simp [hclaim]

variable {e : TransportServerConfiguration × List ListenerHostKey}

theorem claim_of_mem (h : e ∈ listenerClaims c ord) :
    ∃ ts, c.transportServers.get (objectKey ts) = some ts ∧ listenerClaim c ts = some e := by
  unfold listenerClaims at h
  simp only [mem_filterMap, Option.bind_eq_some_iff] at h
  obtain ⟨key, -, ts, hts, he⟩ := h
  exact ⟨ts, by rw [Store.key_of_get hts, hts], he⟩

theorem mem_of_claim (hts : c.transportServers.get (objectKey ts) = some ts)
    (he : listenerClaim c ts = some e) : e ∈ listenerClaims c ord := by
  unfold listenerClaims
  simp only [mem_filterMap, Option.bind_eq_some_iff, ord.mem_visit, Store.mem_sortedKeys]
  exact ⟨objectKey ts, ⟨ts, hts⟩, ts, hts, he⟩

theorem listenerClaim_spec (he : listenerClaim c ts = some e) :
    e.1.transportServer = ts ∧ ts.spec.listener.protocol ≠ tlsPassthroughListenerProtocol ∧
      ∀ place, place ∈ e.2 ↔ ∃ l, findListener c ts = some l ∧ place = ⟨l.name, ts.spec.host⟩ ∧
        e.1 = listen { transportServer := ts } l := by
  unfold listenerClaim at he
  split at he
  · cases he
  rename_i hp
  split at he
  · rename_i hnone
    cases he
    exact ⟨rfl, hp, by simp [hnone]⟩
  · rename_i l hl
    cases he
    exact ⟨rfl, hp, by simp [hl]⟩

theorem nodup_names_listenerClaims :
    ((listenerClaims c ord).map fun e => listenerContest.name e.1).Nodup := by
  have hsub : ((listenerClaims c ord).map fun e => listenerContest.name e.1).Sublist
      ((ord.visit .transportServers c.transportServers.sortedKeys).map id) := by
    refine map_filterMap_sublist (fun key e he => ?_) _
    obtain ⟨ts, hts, hclaim⟩ := Option.bind_eq_some_iff.mp he
    have hname : listenerContest.name e.1 = objectKey ts :=
      congrArg objectKey (listenerClaim_spec c hclaim).1
    rw [hname]
    exact Store.key_of_get hts
  rw [map_id] at hsub
  exact (ord.nodup_visit _ c.transportServers.nodup_sortedKeys).sublist hsub

theorem nodup_places_listenerClaims : ∀ e ∈ listenerClaims c ord, e.2.Nodup := by
  intro e he
  obtain ⟨ts, -, hclaim⟩ := claim_of_mem c ord he
  unfold listenerClaim at hclaim
  split at hclaim
  · cases hclaim
  · split at hclaim <;> cases hclaim <;> simp

theorem settled_listeners :
    Settled listenerContest (listenerClaims c ord)
      (buildListenerHostsAndTSConfigurations c ord).contest := by
  rw [contest_buildListenerHosts]
  exact settled_run (nodup_names_listenerClaims c ord) (nodup_places_listenerClaims c ord)

end Claims

section Holders

variable {c : Configuration} {ord : Order}

/-- The TransportServer asks for the place and the GlobalConfiguration has its listener. -/
structure ClaimsPlace (c : Configuration) (ts : TransportServer) (l : Listener)
    (place : ListenerHostKey) : Prop where
  stored : c.transportServers.get (objectKey ts) = some ts
  regular : ts.spec.listener.protocol ≠ tlsPassthroughListenerProtocol
  listener : findListener c ts = some l
  place_eq : place = ⟨l.name, ts.spec.host⟩

variable {place : ListenerHostKey}

theorem ClaimsPlace.name_eq {l : Listener} (h : ClaimsPlace c ts l place) :
    place = ⟨ts.spec.listener.name, ts.spec.host⟩ := by
  have hl := h.listener
  unfold findListener at hl
  split at hl
  · cases hl
  · have hname := find?_some hl
    simp only [Bool.and_eq_true, decide_eq_true_eq] at hname
    rw [h.place_eq, hname.1]

theorem claimsPlace_newListenerHosts
    {tsc : TransportServerConfiguration} (h : (newListenerHosts c ord)[place]? = some tsc) :
    ∃ l, ClaimsPlace c tsc.transportServer l place ∧ tsc.bare = (listen
        { transportServer := tsc.transportServer } l).bare ∧
      ∀ ts' l', ClaimsPlace c ts' l' place →
        tsc.transportServer.objectMeta.age ≤ ts'.objectMeta.age := by
  have hsettled := settled_listeners c ord
  unfold newListenerHosts resolveListenerHosts at h
  rw [Table.get_filterMap, Option.bind_eq_some_iff] at h
  obtain ⟨key, hkey, htsc⟩ := h
  obtain ⟨e, he, hplace, hleast, y, hy, hcore, -⟩ := hsettled.entry_of_holder hkey
  obtain rfl : y = tsc := Option.some.inj (hy.symm.trans htsc)
  obtain ⟨ts, hts, hclaim⟩ := claim_of_mem c ord he
  obtain ⟨heq, hregular, hplaces⟩ := listenerClaim_spec c hclaim
  obtain ⟨l, hl, hat, hlisten⟩ := (hplaces place).mp hplace
  have hys : y.transportServer = ts := (transportServer_of_bare hcore).trans heq
  refine ⟨l, ⟨hys ▸ hts, hys ▸ hregular, hys ▸ hl, hys ▸ hat⟩, ?_, ?_⟩
  · rw [hys, ← hlisten]
    exact hcore
  intro ts' l' hts'
  obtain ⟨e', he'⟩ : ∃ e', listenerClaim c ts' = some e' := by
    simp [listenerClaim, hts'.regular, hts'.listener]
  obtain ⟨heq', -, hplaces'⟩ := listenerClaim_spec c he'
  have hmem : e'.1 ∈ claimants place (listenerClaims c ord) := by
    refine mem_map_of_mem (mem_filter.mpr ⟨mem_of_claim c ord hts'.stored he', ?_⟩)
    have hlisten' : e'.1 = listen { transportServer := ts' } l' := by
      simp only [listenerClaim, hts'.regular, hts'.listener, if_false, Option.some.injEq] at he'
      rw [← he']
    simpa using (hplaces' place).mpr ⟨l', hts'.listener, hts'.place_eq, hlisten'⟩
  rw [hys, ← heq, ← heq']
  exact hleast _ hmem

/-- A TransportServer that nobody older competes with holds its place, if it is visited last. -/
theorem exists_order_holding {l : Listener} (h : ClaimsPlace c ts l place)
    (hnone : ∀ ts' l', ClaimsPlace c ts' l' place → ¬ ts'.objectMeta.age < ts.objectMeta.age) :
    ∃ (ord : Order) (tsc : TransportServerConfiguration),
      (newListenerHosts c ord)[place]? = some tsc ∧ tsc.transportServer = ts := by
  have hin : objectKey ts ∈ c.transportServers.sortedKeys :=
    Store.mem_sortedKeys.mpr ⟨ts, h.stored⟩
  obtain ⟨ord, hord, -⟩ := IterOrder.exists_visit Loop.transportServers
    ((perm_append_comm.trans (perm_cons_erase hin).symm :
      (c.transportServers.sortedKeys.erase (objectKey ts) ++ [objectKey ts]).Perm _))
  have hsettled := settled_listeners c ord
  obtain ⟨e, he⟩ : ∃ e, listenerClaim c ts = some e := by
    simp [listenerClaim, h.regular, h.listener]
  obtain ⟨heq, -, hplaces⟩ := listenerClaim_spec c he
  have hlisten : e.1 = listen { transportServer := ts } l := by
    simp only [listenerClaim, h.regular, h.listener, if_false, Option.some.injEq] at he
    rw [← he]
  have hat : place ∈ e.2 := (hplaces place).mpr ⟨l, h.listener, h.place_eq, hlisten⟩
  have hlast : ∃ before, listenerClaims c ord = before ++ [e] := by
    refine ⟨(c.transportServers.sortedKeys.erase (objectKey ts)).filterMap fun key =>
      (c.transportServers.get key).bind (listenerClaim c), ?_⟩
    unfold listenerClaims
    rw [hord, filterMap_append]
    simp [h.stored, he]
  obtain ⟨before, hbefore⟩ := hlast
  have hchampion : Champion.champion listenerContest.rank
      (claimants place (listenerClaims c ord)) = some e.1 := by
    rw [hbefore, claimants_concat, if_pos hat]
    refine Champion.champion_concat_of_least _ fun y hy hlt => ?_
    obtain ⟨e', he', rfl⟩ := mem_map.mp hy
    obtain ⟨he', hplace'⟩ := mem_filter.mp he'
    obtain ⟨ts', hts', hclaim'⟩ := claim_of_mem c ord
      (hbefore ▸ mem_append_left _ he' : e' ∈ listenerClaims c ord)
    obtain ⟨heq', hregular', hplaces'⟩ := listenerClaim_spec c hclaim'
    obtain ⟨l', hl', hat', -⟩ := (hplaces' place).mp (by simpa using hplace')
    refine hnone ts' l' ⟨hts', hregular', hl', hat'⟩ ?_
    rw [← heq, ← heq']
    exact hlt
  obtain ⟨tsc, htsc, hcore, -⟩ := hsettled.contender e (hbefore ▸ by simp)
  refine ⟨ord, tsc, ?_, (transportServer_of_bare hcore).trans heq⟩
  unfold newListenerHosts resolveListenerHosts
  rw [Table.get_filterMap, show (buildListenerHostsAndTSConfigurations c ord).listenerHosts[place]?
    = _ from hsettled.holder place, hchampion]
  exact htsc

end Holders

/-- Every configuration stands at the place of its TransportServer, and a TransportServer has one
version. -/
structure ListenersWf (listenerHosts : Table ListenerHostKey TransportServerConfiguration) :
    Prop where
  place : ∀ (p : ListenerHostKey) tsc, listenerHosts[p]? = some tsc →
    p = ⟨tsc.transportServer.spec.listener.name, tsc.transportServer.spec.host⟩
  version : ∀ (p p' : ListenerHostKey) tsc tsc', listenerHosts[p]? = some tsc →
    listenerHosts[p']? = some tsc' →
    objectKey tsc.transportServer = objectKey tsc'.transportServer →
      tsc.transportServer = tsc'.transportServer

theorem listenersWf_newListenerHosts (c : Configuration) (ord : Order) :
    ListenersWf (newListenerHosts c ord) where
  place p tsc htsc := by
    obtain ⟨l, hclaims, -⟩ := claimsPlace_newListenerHosts htsc
    exact hclaims.name_eq
  version p p' tsc tsc' htsc htsc' hkey := by
    obtain ⟨l, hclaims, -⟩ := claimsPlace_newListenerHosts htsc
    obtain ⟨l', hclaims', -⟩ := claimsPlace_newListenerHosts htsc'
    have hstored := hclaims.stored
    rw [hkey, hclaims'.stored] at hstored
    exact (Option.some.inj hstored).symm

variable {p : ListenerHostKey}

theorem get_listenerResources {t : Table ListenerHostKey TransportServerConfiguration}
    {r : Resource} :
    (listenerResources t)[p]? = some r ↔ ∃ tsc, t[p]? = some tsc ∧ r = .transportServer tsc := by
  rw [listenerResources, Std.ExtTreeMap.getElem?_map, Option.map_eq_some_iff]
  simp only [eq_comm]

theorem listenerResources_none {t : Table ListenerHostKey TransportServerConfiguration} :
    (listenerResources t)[p]? = none ↔ t[p]? = none := by
  simp [listenerResources, Std.ExtTreeMap.getElem?_map]

theorem getKeyWithKind_transportServer_inj {tsc tsc' : TransportServerConfiguration} :
    (Resource.transportServer tsc).getKeyWithKind = (Resource.transportServer tsc').getKeyWithKind ↔
      objectKey tsc.transportServer = objectKey tsc'.transportServer := by
  rw [getKeyWithKind_inj]
  exact ⟨fun h => h.2, fun h => ⟨rfl, h⟩⟩

section Changes

variable {old new : Table ListenerHostKey TransportServerConfiguration}

theorem isEqual_of_not_updated_listener {o n : TransportServerConfiguration} (ho : old[p]? = some o)
    (hn : new[p]? = some n) (hnot : p ∉ (detectChangesInListenerHosts old new).updated) :
    o.isEqual n = true := by
  by_contra hne
  refine hnot ?_
  simp only [detectChangesInListenerHosts, mem_filterMap, Prod.exists,
    Std.ExtTreeMap.mem_toList_iff_getElem?_eq_some]
  exact ⟨p, n, hn, by simp [ho, hne]⟩

theorem mem_removed_listener : p ∈ (detectChangesInListenerHosts old new).removed ↔
    (∃ o, (listenerResources old)[p]? = some o) ∧ (listenerResources new)[p]? = none := by
  rw [detectChangesInListenerHosts, mem_filter, Table.mem_keys_iff,
    Option.isNone_iff_eq_none, listenerResources_none]
  simp [get_listenerResources]

theorem name_of_not_updated_listener {o n : Resource} (ho : (listenerResources old)[p]? = some o)
    (hn : (listenerResources new)[p]? = some n)
    (hnot : p ∉ (detectChangesInListenerHosts old new).updated) :
    o.getKeyWithKind = n.getKeyWithKind := by
  obtain ⟨o, ho₀, rfl⟩ := get_listenerResources.mp ho
  obtain ⟨n, hn₀, rfl⟩ := get_listenerResources.mp hn
  have hequal : (Resource.transportServer o).isEqual (.transportServer n) = true :=
    isEqual_of_not_updated_listener ho₀ hn₀ hnot
  exact getKeyWithKind_of_isEqual hequal

theorem detects_listeners (hold : ListenersWf old) :
    ChangeLog.Detects Resource.getKeyWithKind (listenerResources old) (listenerResources new)
      (detectChangesInListenerHosts old new).removed
      (detectChangesInListenerHosts old new).updated
      (detectChangesInListenerHosts old new).added where
  removed_iff p := mem_removed_listener
  added_iff p := by
    rw [detectChangesInListenerHosts, mem_filter, Table.mem_keys_iff,
      Option.isNone_iff_eq_none, listenerResources_none, and_comm]
    simp [get_listenerResources]
  kept_ident p o n := name_of_not_updated_listener
  kept_places p o n ho hn hnot p' o' ho' hname := by
    have hsame := name_of_not_updated_listener ho hn hnot
    obtain ⟨o, ho₀, rfl⟩ := get_listenerResources.mp ho
    obtain ⟨o', ho₁, rfl⟩ := get_listenerResources.mp ho'
    have hversion := hold.version p' p o' o ho₁ ho₀ (getKeyWithKind_transportServer_inj.mp hname)
    have hplace : p' = p := by
      rw [hold.place p' o' ho₁, hold.place p o ho₀, hversion]
    subst hplace
    exact ⟨_, hn, hsame.symm⟩

end Changes

end Configuration

end IngressController
