import IngressController.Configuration.HostArbitration

/-! # The rebuilt host table

An Ingress in the table knows exactly the hosts it holds, any other resource holds
one host, and every holder is made from a stored object that claims the host.
-/

namespace IngressController

open Resource List Option

namespace Configuration

/-! ## Warnings do not matter -/

variable {r : Resource} {ic : IngressConfiguration}

theorem ingress_of_bare (h : r.bare = (ingress ic).bare) :
    ∃ ic', r = .ingress ic' ∧ ic'.validHosts = ic.validHosts := by
  cases r with
  | ingress ic' =>
    simp only [bare, ingress.injEq, IngressConfiguration.mk.injEq] at h
    exact ⟨ic', rfl, h.2.2.2.1⟩
  | virtualServer | transportServer => simp [bare] at h

section

variable {κ : Type} [Ord κ] [Std.TransOrd κ] {t t' : Table κ Resource}

def SameUpToWarnings (t t' : Table κ Resource) : Prop :=
  ∀ k : κ, t[k]?.map bare = t'[k]?.map bare

theorem SameUpToWarnings.get (h : SameUpToWarnings t t') {k : κ} (hr : t[k]? = some r) :
    ∃ r', t'[k]? = some r' ∧ r.bare = r'.bare := by
  have := h k
  rw [hr, map_some, eq_comm, map_eq_some_iff] at this
  obtain ⟨r', hr', hbare⟩ := this
  exact ⟨r', hr', hbare.symm⟩

theorem SameUpToWarnings.symm (h : SameUpToWarnings t t') : SameUpToWarnings t' t :=
  fun k => (h k).symm

end

variable {t t' : GoMap Resource}

theorem SameUpToWarnings.map_object (h : SameUpToWarnings t t') (k : String) :
    t[k]?.map object = t'[k]?.map object := by
  simpa [Option.map_map, Function.comp_def] using congrArg (Option.map object) (h k)

theorem sameUpToWarnings_modify (h : SameUpToWarnings t t')
    (k w : String) : SameUpToWarnings (t.modify k (addWarning w)) t' := by
  intro k'
  rw [Table.get_modify]
  split
  · rw [Option.map_map, ← h k']
    congr 1
    funext r
    exact bare_addWarning w r
  · exact h k'

theorem sameUpToWarnings_addWarnings (c : Configuration) (order : List String)
    (hosts : GoMap String) (resources : GoMap Resource) :
    SameUpToWarnings (addWarningsForVirtualServersWithMissConfiguredListeners c order hosts
      resources) resources := by
  refine foldlRecOn (motive := fun t => SameUpToWarnings t resources) order _
    (fun _ => rfl) fun t ht key _ => ?_
  split
  · split
    · exact sameUpToWarnings_modify ht _ _
    · exact ht
  · exact ht

variable (hosts : GoMap String)

theorem sameUpToWarnings_resolveHosts (h : SameUpToWarnings t t') :
    SameUpToWarnings (resolveHosts hosts t) (resolveHosts hosts t') := by
  intro host
  rw [get_resolveHosts, get_resolveHosts]
  cases hosts[host]? with
  | none => rfl
  | some key => exact h key

/-- An Ingress knows exactly the hosts it holds, and other resources hold one host. -/
structure HostsWf (hosts : GoMap Resource) : Prop where
  validHosts : ∀ (h : String) ic, hosts[h]? = some (.ingress ic) → ∀ h' : String,
    ic.validHosts[h']? = some true ↔
      ∃ r, hosts[h']? = some r ∧ r.getKeyWithKind = (ingress ic).getKeyWithKind
  single : ∀ (h h' : String) r r', hosts[h]? = some r → hosts[h']? = some r' →
    r.getKeyWithKind = r'.getKeyWithKind → (∀ ic, r ≠ .ingress ic) → h = h'

theorem HostsWf.of_sameUpToWarnings (hwf : HostsWf t) (h : SameUpToWarnings t' t) : HostsWf t' where
  validHosts host ic hic host' := by
    obtain ⟨r, hr, hbare⟩ := h.get hic
    obtain ⟨ic₀, rfl, hvalid⟩ := ingress_of_bare hbare.symm
    rw [← hvalid, hwf.validHosts host ic₀ hr host', name_of_bare hbare]
    constructor <;> rintro ⟨r', hr', hname⟩
    · obtain ⟨r'', hr'', hbare'⟩ := h.symm.get hr'
      exact ⟨r'', hr'', (name_of_bare hbare').symm.trans hname⟩
    · obtain ⟨r'', hr'', hbare'⟩ := h.get hr'
      exact ⟨r'', hr'', (name_of_bare hbare').symm.trans hname⟩
  single host host' r r' hr hr' hname hkind := by
    obtain ⟨r₀, hr₀, hbare⟩ := h.get hr
    obtain ⟨r₁, hr₁, hbare'⟩ := h.get hr'
    refine hwf.single host host' r₀ r₁ hr₀ hr₁ ?_ ?_
    · rw [← name_of_bare hbare, ← name_of_bare hbare', hname]
    · rintro ic rfl
      obtain ⟨ic', rfl, -⟩ := ingress_of_bare hbare
      exact hkind ic' rfl

theorem HostsWf.empty : HostsWf ∅ where
  validHosts h ic hic := by simp at hic
  single h h' r r' hr := by simp at hr

variable {key : String}

section Build

variable {env : Env} {c : Configuration} {ord : Order}
  (haccepted : ∀ ing, Stored c (.ingress ing) → env.validateIngress ing = none)

include haccepted

theorem settled_build :
    Arbitration.Settled hostContest (hostClaims env c ord)
      (buildHostsAndResources env c ord).contest := by
  rw [contest_buildHostsAndResources]
  exact settled_of_perm (List.Perm.refl _) haccepted

theorem build_contender {e : Resource × List String} (he : e ∈ hostClaims env c ord) :
    ∃ r, (buildHostsAndResources env c ord).resources[e.1.getKeyWithKind]? = some r ∧
      r.bare = e.1.bare ∧ r.warnings.Perm (e.1.warnings ++ (Arbitration.lost
        (buildHostsAndResources env c ord).hosts e.1.getKeyWithKind e.2).map hostTaken) :=
  (settled_build haccepted).contender e he

theorem build_resource {r : Resource}
    (h : (buildHostsAndResources env c ord).resources[key]? = some r) :
    r.getKeyWithKind = key ∧ ∃ e ∈ hostClaims env c ord, r.bare = e.1.bare := by
  have hsettled : Arbitration.Settled hostContest (hostClaims env c ord) _ :=
    settled_build haccepted
  obtain ⟨hname, e, he, hcore, -⟩ := hsettled.entry_of_contender h
  exact ⟨hname, e, he, hcore⟩

theorem build_holder {host : String}
    (h : (buildHostsAndResources env c ord).hosts[host]? = some key) :
    ∃ r, (buildHostsAndResources env c ord).resources[key]? = some r ∧
      r.getKeyWithKind = key ∧ ClaimsHost env c host r.object := by
  have hsettled : Arbitration.Settled hostContest (hostClaims env c ord) _ :=
    settled_build haccepted
  obtain ⟨e, he, hhost, -, r, hr, hcore, hname⟩ := hsettled.entry_of_holder h
  refine ⟨r, hr, hname, ?_⟩
  rw [object_of_bare hcore]
  exact ((claimsHost_of_mem he).2 host).mp hhost

end Build

variable (r : Resource)

@[simp] theorem object_activate : (activate hosts r).object = r.object := by
  cases r <;> rfl

@[simp] theorem warnings_activate : (activate hosts r).warnings = r.warnings := by
  cases r <;> rfl

@[simp] theorem getKeyWithKind_activate : (activate hosts r).getKeyWithKind = r.getKeyWithKind := by
  cases r <;> rfl

theorem validHosts_activate (ic : IngressConfiguration) (hempty : ic.validHosts = ∅) :
    ∃ ic', activate hosts (.ingress ic) = .ingress ic' ∧ ∀ h : String,
      ic'.validHosts[h]? = some true ↔ h ∈ ic.ingress.spec.rules.map IngressRule.host ∧
        hosts[h]? = some (ingress ic).getKeyWithKind := by
  refine ⟨_, rfl, fun h => ?_⟩
  rw [Table.get_foldl_insert _ IngressRule.host
    (fun h => decide (hosts[h]? = some (ingress ic).getKeyWithKind)), hempty]
  by_cases hin : h ∈ ic.ingress.spec.rules.map IngressRule.host <;> simp [hin]

/-- The hosts of an Ingress are marked only after the contest. -/
theorem validHosts_of_claim {env : Env} {c : Configuration} {ord : Order}
    {e : Resource × List String} (he : e ∈ hostClaims env c ord)
    (hic : (ingress ic).bare = e.1.bare) : ic.validHosts = ∅ := by
  obtain ⟨ic', hic', hvalid⟩ := ingress_of_bare hic.symm
  cases hostClaim_of_mem he with
  | ingress _ =>
    rw [← hvalid]
    simp only [ingressResource] at hic'
    split at hic' <;> cases hic' <;> rfl
  | virtualServer _ => simp [virtualServerClaim, virtualServerResource] at hic'
  | transportServer _ => cases hic'

section NewHosts

variable {env : Env} {c : Configuration} {ord : Order}

theorem get_newResources {r : Resource} : (newResources env c ord)[key]? = some r ↔
    ∃ r₀, (buildHostsAndResources env c ord).resources[key]? = some r₀ ∧
      activate (buildHostsAndResources env c ord).hosts r₀ = r := by
  unfold newResources updateActiveHostsForIngresses
  rw [Std.ExtTreeMap.getElem?_map, map_eq_some_iff]

theorem get_newHosts {h : String} {r : Resource} :
    (newHosts env c ord)[h]? = some r ↔
      ∃ key r₀, (buildHostsAndResources env c ord).hosts[h]? = some key ∧
        (buildHostsAndResources env c ord).resources[key]? = some r₀ ∧
        r = activate (buildHostsAndResources env c ord).hosts r₀ := by
  simp only [newHosts, get_resolveHosts, bind_eq_some_iff, get_newResources]
  constructor
  · rintro ⟨key, hkey, r₀, hr₀, rfl⟩
    exact ⟨key, r₀, hkey, hr₀, rfl⟩
  · rintro ⟨key, r₀, hkey, hr₀, rfl⟩
    exact ⟨key, hkey, r₀, hr₀, rfl⟩

variable (haccepted : ∀ ing, Stored c (.ingress ing) → env.validateIngress ing = none)

include haccepted

theorem claimsHost_newHosts {h : String} {r : Resource} (hr : (newHosts env c ord)[h]? = some r) :
    ClaimsHost env c h r.object := by
  obtain ⟨key, r₀, hkey, hr₀, rfl⟩ := get_newHosts.mp hr
  obtain ⟨r₁, hr₁, -, hclaims⟩ := build_holder haccepted hkey
  rw [hr₀, some.injEq] at hr₁
  rw [object_activate, hr₁]
  exact hclaims

theorem hostsWf_newHosts : HostsWf (newHosts env c ord) where
  validHosts h ic hic h' := by
    obtain ⟨key, r₀, hkey, hr₀, hactive⟩ := get_newHosts.mp hic
    obtain ⟨hname, e, he, hbare⟩ := build_resource haccepted hr₀
    cases r₀ with
    | virtualServer | transportServer => cases hactive
    | ingress ic₀ =>
      obtain ⟨ic', hic', hvalid⟩ := validHosts_activate
        (buildHostsAndResources env c ord).hosts ic₀ (validHosts_of_claim he hbare)
      rw [hic', ingress.injEq] at hactive
      subst hactive
      have hkeys : (ingress ic).getKeyWithKind = key := by
        rw [← hic', getKeyWithKind_activate, hname]
      rw [hvalid h', hname, hkeys]
      constructor
      · rintro ⟨-, hheld⟩
        exact ⟨_, get_newHosts.mpr ⟨key, _, hheld, hr₀, rfl⟩, by simp [hname]⟩
      rintro ⟨r', hr', hname'⟩
      obtain ⟨key', r₁, hkey', hr₁, rfl⟩ := get_newHosts.mp hr'
      have hsame : key' = key := by
        rw [← (build_resource haccepted hr₁).1, ← hname', getKeyWithKind_activate]
      subst hsame
      obtain ⟨r₂, hr₂, -, hclaims⟩ := build_holder haccepted hkey'
      rw [hr₀, some.injEq] at hr₂
      subst hr₂
      exact ⟨hclaims.2.2.2, hkey'⟩
  single h h' r r' hr hr' hname hkind := by
    obtain ⟨key, r₀, hkey, hr₀, rfl⟩ := get_newHosts.mp hr
    obtain ⟨key', r₁, hkey', hr₁, rfl⟩ := get_newHosts.mp hr'
    have hsame : key' = key := by
      rw [← (build_resource haccepted hr₁).1, ← (build_resource haccepted hr₀).1,
        ← getKeyWithKind_activate, ← hname, getKeyWithKind_activate]
    subst hsame
    rw [hr₀, some.injEq] at hr₁
    subst hr₁
    have hclaims := claimsHost_newHosts haccepted hr
    have hclaims' := claimsHost_newHosts haccepted hr'
    cases r₀ with
    | ingress ic => exact absurd rfl (hkind _)
    | virtualServer vsc => exact hclaims.2.symm.trans hclaims'.2
    | transportServer tsc => exact hclaims.2.2.2.symm.trans hclaims'.2.2.2

end NewHosts

/-! ## The rebuilt table -/

section Rebuilt

variable (env : Env) (c : Configuration) (ord : Order)

theorem sameUpToWarnings_rebuildHosts :
    SameUpToWarnings (rebuildHosts env c ord).1.hosts (newHosts env c ord) :=
  sameUpToWarnings_resolveHosts _ (sameUpToWarnings_addWarnings c _ _ _)

variable {env c ord} (haccepted : ∀ ing, Stored c (.ingress ing) → env.validateIngress ing = none)

include haccepted

theorem hostsWf_rebuildHosts : HostsWf (rebuildHosts env c ord).1.hosts :=
  (hostsWf_newHosts haccepted).of_sameUpToWarnings (sameUpToWarnings_rebuildHosts env c ord)

theorem claimsHost_rebuildHosts {h : String} {r : Resource}
    (hr : (rebuildHosts env c ord).1.hosts[h]? = some r) : ClaimsHost env c h r.object := by
  obtain ⟨r', hr', hbare⟩ := (sameUpToWarnings_rebuildHosts env c ord).get hr
  rw [object_of_bare hbare]
  exact claimsHost_newHosts haccepted hr'

theorem name_of_get_warnedResources {r : Resource}
    (hr : (warnedResources env c ord)[key]? = some r) :
    r.getKeyWithKind = key := by
  obtain ⟨r', hr', hbare⟩ := (sameUpToWarnings_addWarnings c _ _ _).get hr
  obtain ⟨r₀, hr₀, rfl⟩ := get_newResources.mp hr'
  rw [name_of_bare hbare, getKeyWithKind_activate]
  exact (build_resource haccepted hr₀).1

end Rebuilt

/-! ## Changes of the host table -/

section Changes

variable {old new : GoMap Resource} {h : String}

theorem mem_removed :
    h ∈ (detectChangesInHosts old new).removed ↔ (∃ o, old[h]? = some o) ∧ new[h]? = none := by
  rw [detectChangesInHosts, mem_filter, Table.mem_keys_iff, isNone_iff_eq_none]

theorem mem_added :
    h ∈ (detectChangesInHosts old new).added ↔ old[h]? = none ∧ ∃ n, new[h]? = some n := by
  rw [detectChangesInHosts, mem_filter, Table.mem_keys_iff, isNone_iff_eq_none,
    and_comm]

theorem mem_updated :
    h ∈ (detectChangesInHosts old new).updated ↔
      ∃ o n, old[h]? = some o ∧ new[h]? = some n ∧ hostUpdates h o n ≠ [] := by
  have hself : ∀ h' o n, h ∈ hostUpdates h' o n ↔ h' = h ∧ hostUpdates h o n ≠ [] := by
    intro h' o n
    by_cases hh : h' = h
    · subst hh
      unfold hostUpdates
      split
      · split
        · split_ifs <;> simp
        · simp
      · simp
    · refine ⟨fun hin => ?_, fun hin => absurd hin.1 hh⟩
      unfold hostUpdates at hin
      split at hin
      · split at hin
        · split_ifs at hin <;> simp [Ne.symm hh] at hin
        · simp at hin
      · simp [Ne.symm hh] at hin
  simp only [detectChangesInHosts, mem_flatMap, Prod.exists,
    Std.ExtTreeMap.mem_toList_iff_getElem?_eq_some]
  constructor
  · rintro ⟨h', n, hn, hin⟩
    cases ho : old[h']? with
    | none => simp [ho] at hin
    | some o =>
      rw [ho] at hin
      obtain ⟨rfl, hne⟩ := (hself h' o n).mp hin
      exact ⟨o, n, ho, hn, hne⟩
  · rintro ⟨o, n, ho, hn, hne⟩
    exact ⟨h, n, hn, by rw [ho]; exact (hself h o n).mpr ⟨rfl, hne⟩⟩

theorem isEqual_of_not_updated {o n : Resource} (ho : old[h]? = some o)
    (hn : new[h]? = some n) (hnot : h ∉ (detectChangesInHosts old new).updated) :
    hostUpdates h o n = [] ∧ o.isEqual n = true := by
  have hnil : hostUpdates h o n = [] := by
    by_contra hne
    exact hnot (mem_updated.mpr ⟨o, n, ho, hn, hne⟩)
  refine ⟨hnil, ?_⟩
  by_contra hne
  simp [hostUpdates, hne] at hnil

theorem ingress_of_isEqual {n : Resource} (h : (ingress ic).isEqual n = true) :
    ∃ ic', n = .ingress ic' ∧ ic'.validHosts = ic.validHosts := by
  cases n with
  | ingress ic' =>
    simp only [isEqual, IngressConfiguration.isEqual, Bool.and_eq_true, decide_eq_true_eq] at h
    exact ⟨ic', rfl, h.1.1.1.2.symm⟩
  | virtualServer | transportServer => simp [isEqual] at h

/-- The comparison of two well-formed host tables misses no place of a resource. -/
theorem detects_hosts (hold : HostsWf old) (hnew : HostsWf new) :
    ChangeLog.Detects getKeyWithKind old new (detectChangesInHosts old new).removed
      (detectChangesInHosts old new).updated (detectChangesInHosts old new).added where
  removed_iff h := mem_removed
  added_iff h := mem_added
  kept_ident h o n ho hn hnot :=
    getKeyWithKind_of_isEqual (isEqual_of_not_updated ho hn hnot).2
  kept_places h o n ho hn hnot h' o' ho' hname := by
    have hequal := (isEqual_of_not_updated ho hn hnot).2
    have hsame := getKeyWithKind_of_isEqual hequal
    by_cases hkind : ∃ ic, o = .ingress ic
    · obtain ⟨ic, rfl⟩ := hkind
      obtain ⟨ic', rfl, hvalid⟩ := ingress_of_isEqual hequal
      -- the Ingress held the other host before, so it was marked, and the marks did not change
      have hmarked := (hold.validHosts h ic ho h').mpr ⟨o', ho', hname⟩
      rw [← hvalid] at hmarked
      obtain ⟨n', hn', hname'⟩ := (hnew.validHosts h ic' hn h').mp hmarked
      exact ⟨n', hn', hname'.trans hsame.symm⟩
    · have hplace : h = h' := hold.single h h' o o' ho ho' hname.symm
        fun ic hic => hkind ⟨ic, hic⟩
      subst hplace
      exact ⟨n, hn, hsame.symm⟩

end Changes

end Configuration

end IngressController
