import IngressController.Configuration.ChangeReplay
import IngressController.Configuration.Rendered

/-! # Changes of rendered fields

A resource that stays active and whose config changes has to be announced. Whether it is
depends on the comparison of the old and the new resource. It misses a change in what it does
not look at: the addresses of a listener that keeps its port, the spec of a route that stands
for a challenge Ingress, and the paths of a minion that was replaced.
-/

namespace IngressController

open IngressController.Configuration ChangeLog MinionConfiguration Resource Operation List Env

/-- The comparisons of the resources of `c` with those made from the stores of `s` tell configs
apart. -/
structure Recognizable (env : Env) (c s : Configuration) : Prop where
  virtualServers : ∀ (h : String) vsc vs, c.hosts[h]? = some (.virtualServer vsc) →
    Stored s (.virtualServer vs) →
    compareObjectMetas vsc.virtualServer.objectMeta vs.objectMeta = true →
      vsc.virtualServer.spec = vs.spec
  /-- Routes of the API and routes that stand for challenge Ingresses. -/
  routes : ∀ (h : String) vsc v v', c.hosts[h]? = some (.virtualServer vsc) →
    v ∈ vsc.virtualServerRoutes → (Stored s (.virtualServerRoute v') ∨ v' ∈ challenges env s) →
    compareObjectMetas v.objectMeta v'.objectMeta = true → v.spec = v'.spec
  /-- Masters, minions and regular Ingresses. -/
  ingresses : ∀ (h : String) ic old new, c.hosts[h]? = some (.ingress ic) →
    old ∈ ic.ingress :: ic.minions.map MinionConfiguration.ingress → Stored s (.ingress new) →
    compareObjectMetasWithAnnotations old.objectMeta new.objectMeta = true → old.spec = new.spec
  /-- Minions that list the same path keep their order of age. -/
  ages : ∀ (h : String) ic, c.hosts[h]? = some (.ingress ic) →
    ∀ old ∈ ic.minions.map MinionConfiguration.ingress,
    ∀ old' ∈ ic.minions.map MinionConfiguration.ingress,
    ∀ new new', Stored s (.ingress new) → Stored s (.ingress new') →
    compareObjectMetasWithAnnotations old.objectMeta new.objectMeta = true →
    compareObjectMetasWithAnnotations old'.objectMeta new'.objectMeta = true →
    ¬ (minionPaths old).Disjoint (minionPaths old') →
      chooseObjectMetaWinner new.objectMeta new'.objectMeta =
        chooseObjectMetaWinner old.objectMeta old'.objectMeta
  transportServers : ∀ tsc ts, ((∃ h : String, c.hosts[h]? = some (.transportServer tsc)) ∨
      ∃ p : ListenerHostKey, c.listenerHosts[p]? = some tsc) → Stored s (.transportServer ts) →
    compareObjectMetas tsc.transportServer.objectMeta ts.objectMeta = true →
      tsc.transportServer.spec = ts.spec
  /-- An https listener that keeps its port keeps its addresses, if the http listener does not
  change. -/
  https : ∀ (h : String) vsc, c.hosts[h]? = some (.virtualServer vsc) →
    s.httpAddress vsc.virtualServer = vsc.addresses.1 →
    (s.httpsAddress vsc.virtualServer).1 = vsc.httpsPort →
      s.httpsAddress vsc.virtualServer = vsc.addresses.2
  /-- So does the listener of a TransportServer. -/
  listeners : ∀ (p : ListenerHostKey) tsc l, c.listenerHosts[p]? = some tsc →
    findListener s tsc.transportServer = some l → l.port = tsc.listenerPort →
      l.ipv4 = tsc.ipv4 ∧ l.ipv6 = tsc.ipv6
  /-- Before startup is complete the hosts may be out of date. -/
  startup : c.startupComplete = false → Disjoint (hostNames c) (listenerNames c)

theorem ObjectMeta.rendered_of_compare {m m' : ObjectMeta} (h : compareObjectMetas m m' = true) :
    m.rendered = m'.rendered := by
  obtain ⟨hns, hname, -⟩ := compareObjectMetas_iff.mp h
  rw [ObjectMeta.rendered, ObjectMeta.rendered, hns, hname]

theorem compareWithAnnotations_iff {m m' : ObjectMeta} :
    compareObjectMetasWithAnnotations m m' = true ↔
      compareObjectMetas m m' = true ∧ m.annotations = m'.annotations := by
  simp [compareObjectMetasWithAnnotations]

theorem Ingress.rendered_of_compare {ing ing' : Ingress}
    (h : compareObjectMetasWithAnnotations ing.objectMeta ing'.objectMeta = true)
    (hspec : ing.spec = ing'.spec) : ing.rendered = ing'.rendered := by
  obtain ⟨hmeta, hannotations⟩ := compareWithAnnotations_iff.mp h
  rw [Ingress.rendered, Ingress.rendered, ObjectMeta.rendered_of_compare hmeta, hannotations, hspec]

theorem TransportServer.rendered_of_compare {ts ts' : TransportServer}
    (h : compareObjectMetas ts.objectMeta ts'.objectMeta = true) (hspec : ts.spec = ts'.spec) :
    ts.rendered = ts'.rendered := by
  rw [TransportServer.rendered, TransportServer.rendered, ObjectMeta.rendered_of_compare h, hspec]

variable {n : TransportServerConfiguration} {p : ListenerHostKey}

section Unnoticed

variable {env : Env} {c s₀ s : Configuration} {h : String} (hrec : Recognizable env c s)
include hrec

theorem rendered_virtualServer {o n : VirtualServerConfiguration}
    (ho : c.hosts[h]? = some (.virtualServer o)) (hbo : VirtualServerBuilt env s₀ o)
    (hbn : VirtualServerBuilt env s n) (hequal : o.isEqual n = true)
    (hupdates : hostUpdates h (.virtualServer o) (.virtualServer n) = []) :
    (virtualServer o).rendered = (virtualServer n).rendered := by
  have hports : (n.httpPort = o.httpPort ∧ n.httpsPort = o.httpsPort) ∧
      n.httpIPv4 = o.httpIPv4 ∧ n.httpIPv6 = o.httpIPv6 := by
    simpa [hostUpdates, isEqual, hequal, and_assoc] using hupdates
  simp only [VirtualServerConfiguration.isEqual, Bool.and_eq_true, decide_eq_true_eq,
    all_eq_true] at hequal
  obtain ⟨⟨⟨hmeta, hlen⟩, hroutes⟩, hselectors⟩ := hequal
  have hspec := hrec.virtualServers h o n.virtualServer ho hbn.stored hmeta
  have hvs : o.virtualServer.rendered = n.virtualServer.rendered := by
    rw [VirtualServer.rendered, VirtualServer.rendered, ObjectMeta.rendered_of_compare hmeta, hspec]
  have hvsrs : o.virtualServerRoutes.map VirtualServerRoute.rendered =
      n.virtualServerRoutes.map VirtualServerRoute.rendered := by
    rw [map_eq_iff_zip hlen]
    intro p hp
    have hin := of_mem_zip hp
    have hcompare := hroutes p hp
    rw [VirtualServerRoute.rendered, VirtualServerRoute.rendered,
      ObjectMeta.rendered_of_compare hcompare,
      hrec.routes h o p.1 p.2 ho hin.1 (hbn.routes p.2 hin.2) hcompare]
  have hsel := eq_of_selectorsEqual hbo.selectors hbn.selectors hselectors
  -- the addresses of the https listener are not compared
  have hhttps : n.addresses.2 = o.addresses.2 := by
    have hn := hbn.addresses.trans (addresses_congr s hspec.symm)
    have hhttp : n.addresses.1 = o.addresses.1 := by
      simp only [VirtualServerConfiguration.addresses, hports]
    rw [hn] at hhttp ⊢
    exact hrec.https h o ho hhttp ((congrArg (·.2.1) hn).symm.trans hports.1.2)
  simp only [VirtualServerConfiguration.addresses, Prod.mk.injEq] at hhttps
  simp only [Resource.rendered, Resource.virtualServer.injEq, VirtualServerConfiguration.mk.injEq]
  exact ⟨hvs, hvsrs, hsel, trivial, hports.1.1.symm, hports.1.2.symm, hports.2.1.symm,
    hports.2.2.symm, hhttps.2.1.symm, hhttps.2.2.symm⟩

theorem validPaths_of_compare {o n : IngressConfiguration} (ho : c.hosts[h]? = some (.ingress o))
    (hbo : IngressBuilt s₀ o) (hbn : IngressBuilt s n) (hlen : o.minions.length = n.minions.length)
    (hminions : ∀ p ∈ o.minions.zip n.minions,
      compareObjectMetasWithAnnotations p.1.ingress.objectMeta p.2.ingress.objectMeta = true) :
    o.minions.map validPaths = n.minions.map validPaths := by
  let next (ing : Ingress) : Ingress := (s.ingresses.get (objectKey ing)).getD ing
  have hkey : ∀ {ing ing' : Ingress},
      compareObjectMetasWithAnnotations ing.objectMeta ing'.objectMeta = true →
      objectKey ing = objectKey ing' := by
    intro ing ing' h
    obtain ⟨hns, hname, -⟩ := compareObjectMetas_iff.mp (compareWithAnnotations_iff.mp h).1
    exact getResourceKey_inj.mpr ⟨hns, hname⟩
  have hnext : ∀ p ∈ o.minions.zip n.minions, next p.1.ingress = p.2.ingress := by
    intro p hp
    have hget : s.ingresses.get (objectKey p.2.ingress) = some p.2.ingress :=
      hbn.minionsStored p.2 (of_mem_zip hp).2
    simp only [next, hkey (hminions p hp), hget, Option.getD_some]
  have hversion : ∀ ing ∈ o.minions.map MinionConfiguration.ingress,
      Stored s (.ingress (next ing)) ∧
        compareObjectMetasWithAnnotations ing.objectMeta (next ing).objectMeta = true := by
    intro ing hing
    rw [← map_fst_zip hlen.le, map_map] at hing
    obtain ⟨p, hp, rfl⟩ := mem_map.mp hing
    rw [Function.comp, hnext p hp]
    exact ⟨hbn.minionsStored p.2 (of_mem_zip hp).2, hminions p hp⟩
  have horder : KeepsOrder next (o.minions.map MinionConfiguration.ingress) := by
    constructor <;> intro ing hing <;> obtain ⟨hstored, hcompare⟩ := hversion ing hing
    · exact (hkey hcompare).symm
    · exact (hrec.ingresses h o ing _ ho (mem_cons_of_mem _ hing) hstored hcompare).symm
    · intro ing' hing'
      obtain ⟨hstored', hcompare'⟩ := hversion ing' hing'
      exact hrec.ages h o ho ing hing ing' hing' _ _ hstored hstored' hcompare hcompare'
  obtain ⟨ings, hsorted, hold⟩ := hbo.minions
  obtain ⟨ings', hsorted', hnew⟩ := hbn.minions
  have hings : o.minions.map MinionConfiguration.ingress = ings := by
    rw [hold, map_ingress_values hsorted]
  have hings' : ings.map next = ings' := by
    rw [← hings, ← map_ingress_values hsorted', ← hnew, map_map]
    exact (map_eq_iff_zip hlen).mpr hnext
  rw [hings] at horder
  rw [hold, hnew, ← hings', map_validPaths_values horder (nodup_of_sorted hsorted)]

theorem rendered_ingress {o n : IngressConfiguration} (ho : c.hosts[h]? = some (.ingress o))
    (hbo : IngressBuilt s₀ o) (hbn : IngressBuilt s n) (hequal : o.isEqual n = true) :
    (ingress o).rendered = (ingress n).rendered := by
  simp only [IngressConfiguration.isEqual, Bool.and_eq_true, decide_eq_true_eq,
    all_eq_true] at hequal
  obtain ⟨⟨⟨⟨hmeta, hvalid⟩, hmaster⟩, hlen⟩, hminions⟩ := hequal
  have hing := Ingress.rendered_of_compare hmeta (hrec.ingresses h o _ n.ingress ho mem_cons_self
    hbn.stored hmeta)
  have hpaths := validPaths_of_compare hrec ho hbo hbn hlen hminions
  have hrendered : o.minions.map MinionConfiguration.rendered =
      n.minions.map MinionConfiguration.rendered := by
    rw [map_eq_iff_zip hlen] at hpaths ⊢
    intro p hp
    have hin := of_mem_zip hp
    have hspec := hrec.ingresses h o _ p.2.ingress ho (mem_cons_of_mem _ (mem_map_of_mem hin.1))
      (hbn.minionsStored p.2 hin.2) (hminions p hp)
    rw [MinionConfiguration.rendered, MinionConfiguration.rendered, hpaths p hp,
      Ingress.rendered_of_compare (hminions p hp) hspec]
  simp only [Resource.rendered, Resource.ingress.injEq, IngressConfiguration.mk.injEq]
  exact ⟨hing, hmaster, hrendered, hvalid, trivial, trivial⟩

theorem rendered_transportServer {o : TransportServerConfiguration}
    (ho : c.hosts[h]? = some (.transportServer o)) (hbo : TransportServerBuilt s₀ o)
    (hbn : TransportServerBuilt s n) (hequal : o.isEqual n = true) :
    (transportServer o).rendered = (transportServer n).rendered := by
  simp only [TransportServerConfiguration.isEqual, Bool.and_eq_true, decide_eq_true_eq] at hequal
  have hspec := hrec.transportServers o n.transportServer (.inl ⟨h, ho⟩) hbn.stored hequal.1
  have hts := TransportServer.rendered_of_compare hequal.1 hspec
  have haddress := hbo.address.trans hbn.address.symm
  simp only [Prod.mk.injEq] at haddress
  simp only [Resource.rendered, Resource.transportServer.injEq,
    TransportServerConfiguration.mk.injEq]
  exact ⟨haddress.1, haddress.2.1, haddress.2.2, hts, trivial⟩

theorem rendered_of_isEqual {o n : Resource} (ho : c.hosts[h]? = some o) (hbo : KindBuilt env s₀ o)
    (hbn : KindBuilt env s n) (hequal : o.isEqual n = true) (hupdates : hostUpdates h o n = []) :
    o.rendered = n.rendered := by
  cases o with
  | ingress ic =>
    cases n with
    | ingress ic' => exact rendered_ingress hrec ho hbo hbn hequal
    | virtualServer | transportServer => cases hequal
  | virtualServer vsc =>
    cases n with
    | ingress | transportServer => cases hequal
    | virtualServer vsc' => exact rendered_virtualServer hrec ho hbo hbn hequal hupdates
  | transportServer tsc =>
    cases n with
    | ingress | virtualServer => cases hequal
    | transportServer tsc' => exact rendered_transportServer hrec ho hbo hbn hequal

theorem rendered_of_isEqual_listener {ord : Order} {o : TransportServerConfiguration}
    (ho : c.listenerHosts[p]? = some o) (hn : (newListenerHosts s ord)[p]? = some n)
    (hequal : o.isEqual n = true) :
    (transportServer o).rendered = (transportServer n).rendered := by
  obtain ⟨l, hclaims, hbare, -⟩ := claimsPlace_newListenerHosts hn
  simp only [TransportServerConfiguration.isEqual, Bool.and_eq_true, decide_eq_true_eq] at hequal
  have hspec := hrec.transportServers o n.transportServer (.inr ⟨p, ho⟩) hclaims.stored hequal.1
  have hts := TransportServer.rendered_of_compare hequal.1 hspec
  have hfound : findListener s o.transportServer = some l := by
    rw [← hclaims.listener]
    simp only [findListener, hspec]
  have hn' : n.listenerPort = l.port ∧ n.ipv4 = l.ipv4 ∧ n.ipv6 = l.ipv6 := by
    simp only [TransportServerConfiguration.bare, TransportServerConfiguration.listen,
      TransportServerConfiguration.mk.injEq] at hbare
    exact ⟨hbare.1, hbare.2.1, hbare.2.2.1⟩
  have haddress := hrec.listeners p o l ho hfound (hn'.1.symm.trans hequal.2.symm)
  simp only [Resource.rendered, Resource.transportServer.injEq,
    TransportServerConfiguration.mk.injEq]
  exact ⟨hequal.2, haddress.1.symm.trans hn'.2.1.symm, haddress.2.symm.trans hn'.2.2.symm, hts,
    trivial⟩

end Unnoticed

section Announced

variable {env : Env} {s : Configuration} {ord : Order} {name : String}

theorem mem_announced {changes : List ResourceChange} :
    (addOrUpdate, name) ∈ announced changes ↔
      ∃ change ∈ changes, change.op = .addOrUpdate ∧ change.resource.getKeyWithKind = name := by
  simp only [announced, mem_map, Prod.mk.injEq]

theorem announced_host (hok : StoresOk env s) {h : String} {n : Resource}
    (hn : (newHosts env s ord)[h]? = some n)
    (hin : h ∈ (detectChangesInHosts s.hosts (newHosts env s ord)).updated ∨
      h ∈ (detectChangesInHosts s.hosts (newHosts env s ord)).added) :
    (addOrUpdate, n.getKeyWithKind) ∈ announced (rebuildHosts env s ord).2.1 := by
  rw [announced_rebuildHosts env s ord hok]
  exact mem_announced.mpr (exists_update_tableLog.mpr ⟨h, n, hin, hn, rfl⟩)

theorem announced_listener (hn : (newListenerHosts s ord)[p]? = some n)
    (hin : p ∈ (detectChangesInListenerHosts s.listenerHosts (newListenerHosts s ord)).updated ∨
      p ∈ (detectChangesInListenerHosts s.listenerHosts (newListenerHosts s ord)).added) :
    (addOrUpdate, (transportServer n).getKeyWithKind) ∈
      announced (rebuildListenerHosts s ord).2.1 := by
  rw [rebuildListenerHosts_changes s ord]
  exact mem_announced.mpr (exists_update_tableLog.mpr
    ⟨p, _, hin, get_listenerResources.mpr ⟨n, hn, rfl⟩, rfl⟩)

end Announced

variable {r : Resource}

theorem mem_getResources {c : Configuration} (h : r ∈ getResources c) :
    (∃ (p : ListenerHostKey) (tsc : TransportServerConfiguration),
        c.listenerHosts[p]? = some tsc ∧ r = .transportServer tsc) ∨
      r.getKeyWithKind ∉ listenerNames c ∧ ∃ host : String, c.hosts[host]? = some r := by
  simp only [getResources, getResourcesWithFilter, if_true, Table.mem_values] at h
  obtain ⟨key, hkey⟩ := h
  obtain ⟨hin, -⟩ | ⟨hnot, hkey⟩ := Table.get_file_cases hkey
  · obtain ⟨p, hp⟩ := Table.mem_values.mp hin
    obtain ⟨tsc, htsc, rfl⟩ := get_listenerResources.mp hp
    exact .inl ⟨p, tsc, htsc, rfl⟩
  · obtain ⟨hin, hname⟩ | ⟨-, hkey⟩ := Table.get_file_cases hkey
    · refine .inr ⟨?_, Table.mem_values.mp (mem_of_mem_filter hin)⟩
      rw [hname, listenerNames, names, mem_toFinset]
      exact hnot
    · simp at hkey

theorem shared_rebuildHosts {env : Env} {s : Configuration} {ord : Order} (hok : StoresOk env s)
    {h h' : String} {r' : Resource} (hr : (rebuildHosts env s ord).1.hosts[h]? = some r)
    (hr' : (rebuildHosts env s ord).1.hosts[h']? = some r')
    (hname : r.getKeyWithKind = r'.getKeyWithKind) : r = r' := by
  simp only [rebuildHosts, get_resolveHosts, Option.bind_eq_some_iff] at hr hr'
  obtain ⟨key, -, hr⟩ := hr
  obtain ⟨key', -, hr'⟩ := hr'
  rw [name_of_get_warnedResources hok.ingresses hr,
    name_of_get_warnedResources hok.ingresses hr'] at hname
  rw [hname, hr', Option.some.injEq] at hr
  exact hr.symm

theorem ListenersWf.shared {t : Table ListenerHostKey TransportServerConfiguration}
    (hwf : ListenersWf t) {p' : ListenerHostKey} {tsc tsc' : TransportServerConfiguration}
    (h : t[p]? = some tsc) (h' : t[p']? = some tsc')
    (hname : (transportServer tsc).getKeyWithKind = (transportServer tsc').getKeyWithKind) :
    tsc = tsc' := by
  have hts := hwf.version p p' tsc tsc' h h' (getKeyWithKind_transportServer_inj.mp hname)
  have hplace : p = p' := by rw [hwf.place p tsc h, hwf.place p' tsc' h', hts]
  rw [hplace, h', Option.some.injEq] at h
  exact h.symm

section Steps

variable {env : Env} {c s : Configuration} {ord : Order}

/-- A new entry of the hosts that nothing announces renders what an old entry rendered. -/
theorem rendered_host (hok : StoresOk env s) (hrebuilt : Rebuilt env c)
    (htables : s.hosts = c.hosts) (hrec : Recognizable env c s) {h : String}
    (hr : (rebuildHosts env s ord).1.hosts[h]? = some r)
    (hquiet : (addOrUpdate, r.getKeyWithKind) ∉ announced (rebuildHosts env s ord).2.1) :
    ∃ o, c.hosts[h]? = some o ∧ o.getKeyWithKind = r.getKeyWithKind ∧ o.rendered = r.rendered := by
  obtain ⟨n, hn, hbare⟩ := (sameUpToWarnings_rebuildHosts env s ord).get hr
  have hname := name_of_bare hbare
  rw [hname] at hquiet
  have hnot : h ∉ (detectChangesInHosts s.hosts (newHosts env s ord)).updated ∧
      h ∉ (detectChangesInHosts s.hosts (newHosts env s ord)).added :=
    not_or.mp fun hin => hquiet (announced_host hok hn hin)
  cases ho : s.hosts[h]? with
  | none => exact absurd (mem_added.mpr ⟨ho, n, hn⟩) hnot.2
  | some o =>
    obtain ⟨hupdates, hequal⟩ := isEqual_of_not_updated ho hn hnot.1
    rw [htables] at ho
    obtain ⟨s₀, ord₀, hok₀, hhosts⟩ := hrebuilt.hosts
    have ho₀ := ho
    rw [hhosts] at ho₀
    refine ⟨o, ho, (getKeyWithKind_of_isEqual hequal).trans hname.symm, ?_⟩
    rw [rendered_of_bare hbare]
    exact rendered_of_isEqual hrec ho (builtFrom_rebuildHosts hok₀ ho₀).kindBuilt
      (builtFrom_newHosts hok hn).kindBuilt hequal hupdates

theorem rendered_listener (htables : s.listenerHosts = c.listenerHosts)
    (hrec : Recognizable env c s) (hn : (newListenerHosts s ord)[p]? = some n)
    (hquiet : (addOrUpdate, (transportServer n).getKeyWithKind) ∉
      announced (rebuildListenerHosts s ord).2.1) :
    ∃ o, c.listenerHosts[p]? = some o ∧
      (transportServer o).getKeyWithKind = (transportServer n).getKeyWithKind ∧
      (transportServer o).rendered = (transportServer n).rendered := by
  have hnot : p ∉ (detectChangesInListenerHosts s.listenerHosts (newListenerHosts s ord)).updated ∧
      p ∉ (detectChangesInListenerHosts s.listenerHosts (newListenerHosts s ord)).added :=
    not_or.mp fun hin => hquiet (announced_listener hn hin)
  cases ho : s.listenerHosts[p]? with
  | none =>
    have hadded : p ∈ (detectChangesInListenerHosts s.listenerHosts
        (newListenerHosts s ord)).added := by
      rw [detectChangesInListenerHosts, mem_filter, Table.mem_keys_iff, ho]
      exact ⟨⟨n, hn⟩, rfl⟩
    exact absurd hadded hnot.2
  | some o =>
    have hequal : (transportServer o).isEqual (.transportServer n) = true :=
      isEqual_of_not_updated_listener ho hn hnot.1
    rw [htables] at ho
    exact ⟨o, ho, getKeyWithKind_of_isEqual hequal,
      rendered_of_isEqual_listener hrec ho hn hequal⟩

theorem Recognizable.disjoint (hrec : Recognizable env c s) (hok : TablesOk env c) :
    Disjoint (hostNames c) (listenerNames c) := by
  cases hstartup : c.startupComplete with
  | true => exact hok.disjoint hstartup
  | false => exact hrec.startup hstartup

/-- The old resource of a name, when nothing announces it. -/
theorem rendered_of_quiet (hreach : Reachable env c) (op : Op)
    (hrec : Recognizable env c (op.stored env ord c)) {r' : Resource}
    (hr' : r' ∈ getResources (op.run env ord c).1)
    (hquiet : (addOrUpdate, r'.getKeyWithKind) ∉ announced (op.run env ord c).2.changes) :
    (∃ (p : ListenerHostKey) (o : TransportServerConfiguration), c.listenerHosts[p]? = some o ∧
        (transportServer o).getKeyWithKind = r'.getKeyWithKind ∧
        (transportServer o).rendered = r'.rendered) ∨
      ∃ (h : String) (o : Resource), c.hosts[h]? = some o ∧
        o.getKeyWithKind = r'.getKeyWithKind ∧ o.rendered = r'.rendered := by
  obtain ⟨listeners, hosts, hstep⟩ := op.rebuilds env ord c
  obtain ⟨hh, hl⟩ := op.tables_stored env ord c
  have hok := hreach.tablesOk.stores.stored ord op
  rw [hstep.changes_eq, mem_append, not_or] at hquiet
  obtain ⟨p, tsc, htsc, rfl⟩ | ⟨-, h, hr⟩ := mem_getResources hr'
  · rw [hstep.listenerHosts_eq] at htsc
    cases listeners with
    | true => exact .inl ⟨p, rendered_listener hl hrec htsc hquiet.1⟩
    | false => exact .inl ⟨p, tsc, hl ▸ htsc, rfl, rfl⟩
  · rw [hstep.hosts_eq] at hr
    cases hosts with
    | true => exact .inr ⟨h, rendered_host hok hreach.rebuilt hh hrec hr hquiet.2⟩
    | false => exact .inr ⟨h, r', hh ▸ hr, rfl, rfl⟩

/-- A resource that stays active and whose config changes is announced, if the comparisons
recognize the change. -/
theorem rendered_change_is_announced (hreach : Reachable env c) (op : Op)
    (hrec : Recognizable env c (op.stored env ord c)) {r r' : Resource}
    (hr : r ∈ getResources c) (hr' : r' ∈ getResources (op.run env ord c).1)
    (hname : r.getKeyWithKind = r'.getKeyWithKind) (hchanged : r.rendered ≠ r'.rendered) :
    ∃ change ∈ (op.run env ord c).2.changes,
      change.op = .addOrUpdate ∧ change.resource.getKeyWithKind = r.getKeyWithKind := by
  rw [hname]
  apply mem_announced.mp
  by_contra hquiet
  have hdisjoint := hrec.disjoint hreach.tablesOk
  have hboth : ∀ (h : String) (o : Resource) (p : ListenerHostKey)
      (tsc : TransportServerConfiguration), c.hosts[h]? = some o → c.listenerHosts[p]? = some tsc →
      o.getKeyWithKind = (transportServer tsc).getKeyWithKind → False := by
    intro h o p tsc ho htsc hsame
    exact Finset.disjoint_left.mp hdisjoint (mem_names.mpr ⟨h, o, ho, rfl⟩)
      (mem_names.mpr ⟨p, _, get_listenerResources.mpr ⟨tsc, htsc, rfl⟩, hsame.symm⟩)
  obtain ⟨p, o, ho, honame, horendered⟩ | ⟨h, o, ho, honame, horendered⟩ :=
    rendered_of_quiet hreach op hrec hr' hquiet
  · obtain ⟨p₀, tsc, htsc, rfl⟩ | ⟨-, h₀, hr₀⟩ := mem_getResources hr
    · have hsame := ListenersWf.shared hreach.tablesOk.listeners.wf htsc ho
        (hname.trans honame.symm)
      exact hchanged (hsame ▸ horendered)
    · exact hboth h₀ r p o hr₀ ho (hname.trans honame.symm)
  · obtain ⟨p₀, tsc, htsc, rfl⟩ | ⟨-, h₀, hr₀⟩ := mem_getResources hr
    · exact hboth h o p₀ tsc ho htsc (honame.trans hname.symm)
    · obtain ⟨s₀, ord₀, hok₀, hhosts⟩ := hreach.rebuilt.hosts
      rw [hhosts] at hr₀ ho
      have hsame := shared_rebuildHosts hok₀ hr₀ ho (hname.trans honame.symm)
      exact hchanged (hsame ▸ horendered)

/-- After startup no TransportServer of a listener hides the holder of a host in the list. -/
theorem host_holder_is_listed (h : Reachable env c) (hstartup : c.startupComplete = true)
    (host : String) (hr : c.hosts[host]? = some r) : r ∈ getResources c := by
  have hheld : r.getKeyWithKind ∈ hostNames c := mem_names.mpr ⟨host, r, hr, rfl⟩
  have hactive := activeNames_eq c ▸ Finset.mem_union_left (listenerNames c) hheld
  obtain ⟨r', hr', hname⟩ := mem_map.mp (mem_toFinset.mp hactive)
  obtain ⟨p, tsc, htsc, rfl⟩ | ⟨-, host', hhost⟩ := mem_getResources hr'
  · have hlistener := mem_names.mpr ⟨p, _, get_listenerResources.mpr ⟨tsc, htsc, rfl⟩, hname⟩
    cases Finset.disjoint_left.mp (h.tablesOk.disjoint hstartup) hheld hlistener
  · obtain ⟨s, ord, hok, hhosts⟩ := h.rebuilt.hosts
    rw [hhosts] at hr hhost
    exact shared_rebuildHosts hok hr hhost hname.symm ▸ hr'

theorem host_holder_is_listed_secure :
    .transportServer { transportServer := secureApp } ∈ getResources
      (Op.runs (permissive true) withSecureApp [(.asGiven, .api (.addOrUpdateIngress
        { cafeIngress with spec.rules := [{ host := "app.example.com" }] }))]) :=
  host_holder_is_listed (.runs (.runs .init _) _) (by decide +kernel) "app.example.com"
    (by decide +kernel)

end Steps

/-! ## A listener that moves to another address -/

def menu : VirtualServer where
  objectMeta := {
    nspace := .of "default"
    name := .of "menu"
    generation := 1 }
  spec := { host := "menu.example.com", listener := some { https := "https-8443" } }

def menuGunzipped : VirtualServer where
  objectMeta := { menu.objectMeta with generation := 2 }
  spec := { menu.spec with gunzip := true }

def httpsListener (ipv4 : String) : GlobalConfiguration where
  objectMeta := {
    nspace := .of "nginx-ingress"
    name := .of "nginx-configuration" }
  listeners := [{ name := "https-8443", protocol := "HTTP", port := 8443, ipv4, ssl := true }]

def withMenu : Configuration :=
  Op.runs (permissive false) {} [
    (.asGiven, .api (.addOrUpdateGlobalConfiguration (httpsListener "127.0.0.1"))),
    (.asGiven, .api (.addOrUpdateVirtualServer menu)),
    (.asGiven, .completeStartup)]

def menuOn (vs : VirtualServer) (ipv4 : String) : Resource :=
  .virtualServer {
    virtualServer := vs
    httpsPort := 8443
    httpsIPv4 := ipv4 }

theorem hosts_withMenu :
    withMenu.hosts = (∅ : GoMap Resource).insert "menu.example.com" (menuOn menu "127.0.0.1") := by
  decide +kernel

theorem get_hosts_withMenu {h : String} (hr : withMenu.hosts[h]? = some r) :
    r = menuOn menu "127.0.0.1" := by
  rw [hosts_withMenu, Table.get_insert] at hr
  split at hr
  · exact (Option.some.inj hr).symm
  · simp at hr

theorem listenerHosts_withMenu : withMenu.listenerHosts = ∅ := by decide +kernel

theorem recognizable_withMenu : Recognizable (permissive false) withMenu
    ((Op.api (.addOrUpdateVirtualServer menuGunzipped)).stored (permissive false) .asGiven
      withMenu) where
  virtualServers h vsc vs hvsc hvs hcompare := by
    cases get_hosts_withMenu hvsc
    have hmem := Store.mem_sorted.mpr hvs
    have hgen : ∀ vs ∈ ((Op.api (.addOrUpdateVirtualServer menuGunzipped)).stored
        (permissive false) .asGiven withMenu).virtualServers.sorted,
        compareObjectMetas menu.objectMeta vs.objectMeta = false := by decide +kernel
    rw [hgen vs hmem] at hcompare
    cases hcompare
  routes h vsc v v' hvsc hv := by
    cases get_hosts_withMenu hvsc
    cases hv
  ingresses h ic old new hic := by cases get_hosts_withMenu hic
  ages h ic hic := by cases get_hosts_withMenu hic
  transportServers tsc ts htsc := by
    obtain ⟨h, htsc⟩ | ⟨p, htsc⟩ := htsc
    · cases get_hosts_withMenu htsc
    · simp [listenerHosts_withMenu] at htsc
  https h vsc hvsc := by
    cases get_hosts_withMenu hvsc
    decide +kernel
  listeners p tsc l htsc := by
    simp [listenerHosts_withMenu] at htsc
  startup h := absurd h (by decide +kernel)

theorem rendered_change_is_announced_gunzipped :
    ∃ change ∈ ((Op.api (.addOrUpdateVirtualServer menuGunzipped)).run (permissive false)
        .asGiven withMenu).2.changes,
      change.op = .addOrUpdate ∧
        change.resource.getKeyWithKind = (menuOn menu "127.0.0.1").getKeyWithKind :=
  rendered_change_is_announced (r := menuOn menu "127.0.0.1") (Reachable.init.runs _) _
    recognizable_withMenu (by decide +kernel) (by decide +kernel)
    (rfl : _ = (menuOn menuGunzipped "127.0.0.1").getKeyWithKind) (by decide +kernel)

/-- The port stays, so the new address of the listener is not noticed. -/
theorem listener_address_change_is_silent :
    Reachable (permissive false) withMenu ∧
      let after := (Op.api (.addOrUpdateGlobalConfiguration (httpsListener "127.0.0.2"))).run
        (permissive false) .asGiven withMenu
      menuOn menu "127.0.0.1" ∈ getResources withMenu ∧
        menuOn menu "127.0.0.2" ∈ getResources after.1 ∧
        (menuOn menu "127.0.0.1").getKeyWithKind = (menuOn menu "127.0.0.2").getKeyWithKind ∧
        (menuOn menu "127.0.0.1").rendered ≠ (menuOn menu "127.0.0.2").rendered ∧
        after.2.changes = [] := by
  refine ⟨Reachable.init.runs _, ?_⟩
  decide +kernel

end IngressController
