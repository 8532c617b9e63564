import IngressController.Configuration.AttachedRoutes
import IngressController.Configuration.Minions
import IngressController.Configuration.Steps

/-! # What a configuration renders

The config of a resource depends on its objects' names and specs, on the annotations of
Ingresses and on what the build adds: valid hosts and paths, listeners, attached routes.
Comparing two resources looks at generations instead of specs and leaves out some of what
the build adds. This module says when an equal comparison means an equal config.
-/

namespace IngressController

open IngressController.Configuration List Table Std.ExtTreeMap MinionConfiguration

def ObjectMeta.rendered (m : ObjectMeta) : ObjectMeta := { nspace := m.nspace, name := m.name }

def Ingress.rendered (ing : Ingress) : Ingress :=
  { ing with objectMeta :=
    { ing.objectMeta.rendered with annotations := ing.objectMeta.annotations } }

def VirtualServer.rendered (vs : VirtualServer) : VirtualServer :=
  { vs with objectMeta := vs.objectMeta.rendered }

def VirtualServerRoute.rendered (vsr : VirtualServerRoute) : VirtualServerRoute :=
  { vsr with objectMeta := vsr.objectMeta.rendered }

def TransportServer.rendered (ts : TransportServer) : TransportServer :=
  { ts with objectMeta := ts.objectMeta.rendered }

def MinionConfiguration.rendered (m : MinionConfiguration) : MinionConfiguration :=
  { m with ingress := m.ingress.rendered }

/-- A resource without what its config does not depend on. -/
def Resource.rendered : Resource → Resource
  | .ingress ic => .ingress { ic with
      ingress := ic.ingress.rendered
      minions := ic.minions.map MinionConfiguration.rendered
      warnings := []
      childWarnings := ∅ }
  | .virtualServer vsc => .virtualServer { vsc with
      virtualServer := vsc.virtualServer.rendered
      virtualServerRoutes := vsc.virtualServerRoutes.map VirtualServerRoute.rendered
      warnings := [] }
  | .transportServer tsc => .transportServer { tsc with
      transportServer := tsc.transportServer.rendered
      warnings := [] }

theorem Resource.rendered_bare (r : Resource) : r.bare.rendered = r.rendered := by
  cases r <;> rfl

theorem Resource.rendered_of_bare {r r' : Resource} (h : r.bare = r'.bare) :
    r.rendered = r'.rendered := by
  rw [← r.rendered_bare, h, r'.rendered_bare]

variable (c : Configuration)

/-- The custom listener that serves one of the two blocks of a VirtualServer. -/
def Configuration.blockListener (pick : VirtualServerListener → String)
    (isSSL : Bool) (vs : VirtualServer) : Option Listener :=
  match vs.spec.listener, c.globalConfiguration with
  | some listener, some _ => assignListener c (pick listener) isSSL
  | _, _ => none

/-- Port and addresses; zero and empty without a listener. -/
def listenerAddress : Option Listener → Int × String × String
  | some l => (l.port, l.ipv4, l.ipv6)
  | none => (0, "", "")

def Configuration.httpAddress (vs : VirtualServer) : Int × String × String :=
  listenerAddress (c.blockListener VirtualServerListener.http false vs)

def Configuration.httpsAddress (vs : VirtualServer) : Int × String × String :=
  listenerAddress (c.blockListener VirtualServerListener.https true vs)

def VirtualServerConfiguration.addresses (vsc : VirtualServerConfiguration) :
    (Int × String × String) × Int × String × String :=
  ((vsc.httpPort, vsc.httpIPv4, vsc.httpIPv6), vsc.httpsPort, vsc.httpsIPv4, vsc.httpsIPv6)

theorem addresses_congr {vs vs' : VirtualServer} (h : vs.spec = vs'.spec) :
    (c.httpAddress vs, c.httpsAddress vs) = (c.httpAddress vs', c.httpsAddress vs') := by
  simp only [Configuration.httpAddress, Configuration.httpsAddress, Configuration.blockListener, h]

theorem addresses_buildListeners {vsc : VirtualServerConfiguration}
    (hdefault : vsc.addresses = ((0, "", ""), 0, "", "")) :
    (buildListenersForVSConfiguration c vsc).addresses =
      (c.httpAddress vsc.virtualServer, c.httpsAddress vsc.virtualServer) := by
  simp only [buildListenersForVSConfiguration, Configuration.httpAddress,
    Configuration.httpsAddress, Configuration.blockListener]
  cases vsc.virtualServer.spec.listener with
  | none => exact hdefault
  | some listener =>
    cases c.globalConfiguration with
    | none => exact hdefault
    | some gc =>
      obtain ⟨hhttp, hhttps⟩ := Prod.mk.inj hdefault
      simp only
      cases assignListener c listener.http false <;> cases assignListener c listener.https true
      · exact hdefault
      · exact congrArg (·, _) hhttp
      · exact congrArg (_, ·) hhttps
      · rfl

theorem eq_of_selectorLists {xs ys : List String} (hx : xs.Pairwise (· < ·))
    (hy : ys.Pairwise (· < ·)) (hlen : xs.length = ys.length) (hsub : ys ⊆ xs) : xs = ys := by
  have hnodup : ys.Nodup := hy.imp ne_of_lt
  have hperm : ys.Perm xs := (hnodup.subperm hsub).perm_of_length_le hlen.le
  exact (hperm.eq_of_pairwise (fun a b _ _ hab hba => absurd hba (lt_asymm hab)) hy hx).symm

/-- Selector maps with sorted entries compare equal only if they are. -/
theorem eq_of_selectorsEqual {a b : GoMap (List String)}
    (ha : ∀ (s : String) keys, a[s]? = some keys → keys.Pairwise (· < ·))
    (hb : ∀ (s : String) keys, b[s]? = some keys → keys.Pairwise (· < ·))
    (h : selectorsEqual a b = true) : a = b := by
  simp only [selectorsEqual, Bool.and_eq_true, decide_eq_true_eq, List.all_eq_true] at h
  obtain ⟨hsize, hall⟩ := h
  have hentry : ∀ (s : String) keys, a[s]? = some keys → b[s]? = some keys := by
    intro s keys hs
    have hin := hall (s, keys) (mem_toList_iff_getElem?_eq_some.mpr hs)
    simp only at hin
    split at hin
    · cases hin
    · rename_i others hothers
      simp only [Bool.and_eq_true, decide_eq_true_eq, List.all_eq_true,
        List.contains_iff_mem] at hin
      rw [hothers, eq_of_selectorLists (ha s keys hs) (hb s others hothers) hin.1 hin.2]
  have hkeys : a.keys.Perm b.keys := by
    have hsub : a.keys ⊆ b.keys := by
      intro s hs
      obtain ⟨keys, hs⟩ := mem_keys_iff.mp hs
      exact mem_keys_iff.mpr ⟨keys, hentry s keys hs⟩
    have hlen : b.keys.length ≤ a.keys.length := by
      rw [length_keys, length_keys, hsize]
    exact (nodup_keys.subperm hsub).perm_of_length_le hlen
  apply Std.ExtTreeMap.ext_getElem?
  intro s
  ext keys
  constructor
  · exact hentry s keys
  · intro hs
    obtain ⟨keys', hs'⟩ := mem_keys_iff.mp (hkeys.mem_iff.mpr (mem_keys_iff.mpr ⟨keys, hs⟩))
    rw [hs', ← hentry s keys' hs', hs]

section Shapes

variable {env : Env} {s : Configuration} {ord : Order}

/-- A resource that a build makes, up to warnings. -/
def BuiltFrom (env : Env) (s : Configuration) (ord : Order) (r : Resource) : Prop :=
  ∃ hosts, ∃ e ∈ hostClaims env s ord, r.bare = activate hosts e.1.bare

theorem bare_activate (hosts : GoMap String) (r : Resource) :
    (activate hosts r).bare = activate hosts r.bare := by
  cases r <;> rfl

variable {r : Resource}

theorem builtFrom_newHosts (hok : StoresOk env s) {h : String}
    (hr : (newHosts env s ord)[h]? = some r) : BuiltFrom env s ord r := by
  obtain ⟨key, r₀, -, hr₀, rfl⟩ := get_newHosts.mp hr
  obtain ⟨-, e, he, hbare⟩ := build_resource hok.ingresses hr₀
  exact ⟨_, e, he, by rw [bare_activate, hbare]⟩

theorem builtFrom_rebuildHosts (hok : StoresOk env s) {h : String}
    (hr : (rebuildHosts env s ord).1.hosts[h]? = some r) : BuiltFrom env s ord r := by
  obtain ⟨r', hr', hbare⟩ := (sameUpToWarnings_rebuildHosts env s ord).get hr
  obtain ⟨hosts, e, he, hshape⟩ := builtFrom_newHosts hok hr'
  exact ⟨hosts, e, he, hbare.trans hshape⟩

/-- A VirtualServer with its attached routes, its selectors and its https listener. -/
structure VirtualServerBuilt (env : Env) (s : Configuration) (vsc : VirtualServerConfiguration) :
    Prop where
  stored : Stored s (.virtualServer vsc.virtualServer)
  routes : ∀ v ∈ vsc.virtualServerRoutes,
    Stored s (.virtualServerRoute v) ∨ v ∈ challenges env s
  selectors : ∀ (sel : String) keys, vsc.virtualServerRouteSelectors[sel]? = some keys →
    keys.Pairwise (· < ·)
  addresses : vsc.addresses = (s.httpAddress vsc.virtualServer, s.httpsAddress vsc.virtualServer)

/-- An Ingress with the paths shared out among its minions. -/
structure IngressBuilt (s : Configuration) (ic : IngressConfiguration) : Prop where
  stored : Stored s (.ingress ic.ingress)
  minionsStored : ∀ m ∈ ic.minions, Stored s (.ingress m.ingress)
  minions : ∃ ings : List Ingress, (ings.map objectKey).Pairwise (compare · · = .lt) ∧
    ic.minions = Table.values (minionBuild ings).minions
  isMaster : ic.isMaster = IngressController.isMaster ic.ingress
  ofHost : ic.isMaster = true →
    (ic.minions, ic.childWarnings) = buildMinionConfigs s ic.ingress.firstHost
  regular : ic.isMaster = false → ic.minions = []

/-- A passthrough TransportServer has no listener. -/
structure TransportServerBuilt (s : Configuration) (tsc : TransportServerConfiguration) :
    Prop where
  stored : Stored s (.transportServer tsc.transportServer)
  address : (tsc.listenerPort, tsc.ipv4, tsc.ipv6) = (0, "", "")

def KindBuilt (env : Env) (s : Configuration) : Resource → Prop
  | .virtualServer vsc => VirtualServerBuilt env s vsc
  | .ingress ic => IngressBuilt s ic
  | .transportServer tsc => TransportServerBuilt s tsc

theorem kindBuilt_bare : KindBuilt env s r.bare ↔ KindBuilt env s r := by
  cases r with
  | ingress ic =>
    exact ⟨fun h => ⟨h.1, h.2, h.3, h.4, h.5, h.6⟩, fun h => ⟨h.1, h.2, h.3, h.4, h.5, h.6⟩⟩
  | virtualServer vsc => exact ⟨fun h => ⟨h.1, h.2, h.3, h.4⟩, fun h => ⟨h.1, h.2, h.3, h.4⟩⟩
  | transportServer tsc => exact ⟨fun h => ⟨h.1, h.2⟩, fun h => ⟨h.1, h.2⟩⟩

theorem KindBuilt.activate (h : KindBuilt env s r) (hosts : GoMap String) :
    KindBuilt env s (activate hosts r) := by
  cases r with
  | ingress ic => exact ⟨h.stored, h.minionsStored, h.minions, h.isMaster, h.ofHost, h.regular⟩
  | virtualServer | transportServer => exact h

theorem stored_of_minionsOfHost {host : String} {ing : Ingress}
    (h : ing ∈ minionsOfHost s host) : Stored s (.ingress ing) := by
  obtain ⟨key, -, hget⟩ := mem_filterMap.mp h
  have hkey := s.ingresses.key_of_get hget
  rw [← hkey] at hget
  exact hget

theorem kindBuilt_ingressResource {ing : Ingress} (hing : Stored s (.ingress ing)) :
    KindBuilt env s (ingressResource s ing) := by
  unfold ingressResource
  split
  · rename_i hmaster
    have hsorted := sorted_minionsOfHost s ing.firstHost
    have hminions := buildMinionConfigs_eq s ing.firstHost
    refine ⟨hing, fun m hm => ?_, ⟨_, hsorted, hminions⟩, hmaster.symm, fun _ => rfl,
      fun h => nomatch h⟩
    apply stored_of_minionsOfHost
    rw [← map_ingress_values hsorted, ← hminions]
    exact mem_map_of_mem hm
  · rename_i hmaster
    exact ⟨hing, by simp, ⟨[], .nil, rfl⟩, (Bool.eq_false_iff.mpr hmaster).symm,
      (fun h => nomatch h), fun _ => rfl⟩

theorem kindBuilt_virtualServerResource {vs : VirtualServer} (hvs : Stored s (.virtualServer vs)) :
    KindBuilt env s (virtualServerResource env s ord (challenges env s) vs) := by
  simp only [virtualServerResource]
  refine ⟨?_, ?_, ?_, ?_⟩
  · rw [(buildListeners_keeps s _).1]
    exact hvs
  · rw [(buildListeners_keeps s _).2.2.1]
    intro v hv
    obtain hv | hv := mem_append.mp hv
    · exact .inl (stored_of_attached hv)
    · exact .inr (mem_of_mem_filter hv)
  · rw [(buildListeners_keeps s _).2.2.2.1]
    exact fun sel keys hkeys => pairwise_of_selector hkeys
  · rw [(buildListeners_keeps s _).1]
    exact addresses_buildListeners s rfl

theorem kindBuilt_of_claim {e : Resource × List String} (he : e ∈ hostClaims env s ord) :
    KindBuilt env s e.1 := by
  cases hostClaim_of_mem he with
  | ingress hing => exact kindBuilt_ingressResource hing
  | virtualServer hvs => exact kindBuilt_virtualServerResource hvs
  | transportServer hts => exact ⟨hts, rfl⟩

theorem BuiltFrom.kindBuilt (h : BuiltFrom env s ord r) : KindBuilt env s r := by
  obtain ⟨hosts, e, he, hbare⟩ := h
  rw [← kindBuilt_bare, hbare]
  exact (kindBuilt_bare.mpr (kindBuilt_of_claim he)).activate hosts

end Shapes

end IngressController
