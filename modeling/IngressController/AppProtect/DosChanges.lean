import IngressController.AppProtect.DosConfiguration

/-! # The change log of the DoS configuration

The changes of a run tell which protected resources can be served: the latest change for a
resource is `AddOrUpdate` exactly if looking it up succeeds.
-/

namespace IngressController.AppProtectDos

open List Change Option Table Event
open StatusLog (Reports latest)

variable {v : Validation} {c : Configuration}

def Change.about (d : Change) : Option String :=
  match d.resource with
  | .protectedResource ex => some (getResourceKey ex.obj.objectMeta)
  | _ => none

def Change.adds (d : Change) : Bool := d.op = .addOrUpdate

variable {key : String} {selects : DosProtectedResource → Bool}

namespace Configuration

/-- Both references lead to valid objects. -/
def follows (c : Configuration) (p : DosProtectedResource) : Bool :=
  (c.followPolicy p).isOk && (c.followLogConf p).isOk

/-- The resource with this key is stored, valid and refers to valid objects. -/
def serves (c : Configuration) (key : String) : Bool :=
  c.dosProtectedResource[key]?.any fun ex => ex.isValid && c.follows ex.obj

/-- Every resource stands under its key, as its validation made it. -/
def WellStored (v : Validation) (c : Configuration) : Prop :=
  ∀ (key : String) ex, c.dosProtectedResource[key]? = some ex →
    ex = (createDosProtectedResourceEx v ex.obj).1 ∧ getResourceKey ex.obj.objectMeta = key

theorem isOk_getValidDosEx (henabled : c.isDosEnabled = true) (parentNamespace nsName : String) :
    (c.getValidDosEx parentNamespace nsName).isOk =
      c.serves (getNsName parentNamespace nsName) := by
  simp only [getValidDosEx, henabled, Bool.true_eq_false, if_false, serves]
  cases c.dosProtectedResource[getNsName parentNamespace nsName]? with
  | none => rfl
  | some ex =>
    cases hvalid : ex.isValid with
    | false => simp [Except.isOk, Except.toBool, hvalid]
    | true =>
      cases hpolicy : c.followPolicy ex.obj <;> cases hlog : c.followLogConf ex.obj <;>
        simp [follows, hpolicy, hlog, hvalid, Except.isOk, Except.toBool]

theorem verdict_adds (p : DosProtectedResource) :
    (c.verdict v p).1 = .addOrUpdate ↔
      ((createDosProtectedResourceEx v p).1.isValid && c.follows p) = true := by
  simp only [verdict, createDosProtectedResourceEx, follows]
  cases v.validateDosProtectedResource p with
  | some err => simp [storedEx]
  | none =>
    cases c.followPolicy p <;> cases c.followLogConf p <;>
      simp [storedEx, Except.isOk, Except.toBool]

def changeOf (v : Validation) (c : Configuration) (p : DosProtectedResource) : Change :=
  ⟨(c.verdict v p).1, .protectedResource (createDosProtectedResourceEx v p).1⟩

theorem about_changeOf (p : DosProtectedResource) :
    (c.changeOf v p).about = some (getResourceKey p.objectMeta) := by
  simp only [changeOf, about, createDosProtectedResourceEx]
  cases v.validateDosProtectedResource p <;> rfl

variable {p : DosProtectedResource}

theorem adds_changeOf (h : c.dosProtectedResource[getResourceKey p.objectMeta]? =
      some (createDosProtectedResourceEx v p).1) :
    (c.changeOf v p).adds = c.serves (getResourceKey p.objectMeta) := by
  have hobj : (createDosProtectedResourceEx v p).1.obj = p := by
    simp only [createDosProtectedResourceEx]
    cases v.validateDosProtectedResource p <;> rfl
  rw [Bool.eq_iff_iff, adds, decide_eq_true_iff, changeOf, verdict_adds, serves, h,
    any_some, hobj]

theorem wellStored_addOrUpdate (hstored : c.WellStored v) (p : DosProtectedResource) :
    (c.addOrUpdateDosProtectedResource v p).1.WellStored v := by
  intro key ex hex
  simp only [addOrUpdateDosProtectedResource, get_insert] at hex
  split at hex
  case isTrue hkey =>
    cases hex
    subst hkey
    simp only [createDosProtectedResourceEx]
    cases hvalid : v.validateDosProtectedResource p <;> simp [storedEx, hvalid]
  case isFalse => exact hstored key ex hex

theorem reports_addOrUpdate (p : DosProtectedResource) :
    Reports about adds c.serves (c.addOrUpdateDosProtectedResource v p).1.serves
      (c.addOrUpdateDosProtectedResource v p).2.1 := by
  have hchanges : (c.addOrUpdateDosProtectedResource v p).2.1 =
      [(c.addOrUpdateDosProtectedResource v p).1.changeOf v p] := rfl
  rw [hchanges]
  refine Reports.of_touched (fun d hd key habout => ?_) fun key hne => ?_
  · rw [mem_singleton.mp hd] at habout ⊢
    rw [about_changeOf] at habout
    cases habout
    exact adds_changeOf (by simp [addOrUpdateDosProtectedResource])
  · refine ⟨_, mem_singleton_self _, ?_⟩
    rw [about_changeOf, some_inj]
    by_contra hkey
    refine hne ?_
    simp only [serves, addOrUpdateDosProtectedResource, get_insert, if_neg hkey]
    rfl

theorem addOrUpdate_stored (h : c.dosProtectedResource[getResourceKey p.objectMeta]? =
      some (createDosProtectedResourceEx v p).1) :
    c.addOrUpdateDosProtectedResource v p = (c, [c.changeOf v p], (c.verdict v p).2) := by
  have hsame : c.dosProtectedResource.insert (getResourceKey p.objectMeta)
      (createDosProtectedResourceEx v p).1 = c.dosProtectedResource := by
    refine Std.ExtTreeMap.ext_getElem? fun key => ?_
    rw [get_insert]
    split
    case isTrue hkey => rw [← hkey, h]
    case isFalse => rfl
  simp only [addOrUpdateDosProtectedResource, hsame, changeOf]

/-! ## The loop over the affected resources -/

theorem addOrUpdateAll_stored {ps : List DosProtectedResource}
    (h : ∀ p ∈ ps, c.dosProtectedResource[getResourceKey p.objectMeta]? =
      some (createDosProtectedResourceEx v p).1) (changes : List Change) (problems : List Problem) :
    ∃ problems', addOrUpdateAll v ps (c, changes, problems) =
      (c, changes ++ ps.map (c.changeOf v), problems') := by
  induction ps generalizing changes problems with
  | nil => exact ⟨problems, by simp [addOrUpdateAll]⟩
  | cons p ps ih =>
    obtain ⟨problems', heq⟩ := ih (fun q hq => h q (mem_cons_of_mem p hq))
      (changes ++ [c.changeOf v p]) (problems ++ (c.verdict v p).2)
    refine ⟨problems', ?_⟩
    simp only [addOrUpdateAll, addOrUpdate_stored (h p mem_cons_self), heq, map_cons,
      append_assoc, singleton_append]

theorem mem_protectedThat {ord : Order} : p ∈ c.protectedThat ord selects ↔
      selects p = true ∧ ∃ (key : String) (ex : _), c.dosProtectedResource[key]? = some ex ∧
        ex.obj = p := by
  simp only [protectedThat, mem_filterMap, IterOrder.mem_visit, mem_keys_iff,
    filter_eq_some_iff, map_eq_some_iff]
  constructor
  · rintro ⟨key, -, ⟨ex, hex, hobj⟩, hselects⟩
    exact ⟨hselects, key, ex, hex, hobj⟩
  · rintro ⟨hselects, key, ex, hex, hobj⟩
    exact ⟨key, ⟨ex, hex⟩, ⟨ex, hex, hobj⟩, hselects⟩

theorem exists_of_serves_ne {c c' : Configuration}
    (hsame : c'.dosProtectedResource = c.dosProtectedResource)
    (hne : c'.serves key ≠ c.serves key) :
    ∃ ex, c.dosProtectedResource[key]? = some ex ∧ c'.follows ex.obj ≠ c.follows ex.obj := by
  unfold serves at hne
  rw [hsame] at hne
  cases hex : c.dosProtectedResource[key]? with
  | none => simp [hex] at hne
  | some ex =>
    refine ⟨ex, rfl, fun hfollows => hne ?_⟩
    simp [hex, hfollows]

/-- What a policy or log configuration event does once it has written its store. -/
theorem addOrUpdateAll_protectedThat {c c' : Configuration} (hstored : c.WellStored v)
    (hsame : c'.dosProtectedResource = c.dosProtectedResource) (ord : Order) {changes : List Change}
    (problems : List Problem) (hchanges : ∀ d ∈ changes, d.about = none)
    (hselects : ∀ p, c'.follows p ≠ c.follows p → selects p = true) :
    let done := addOrUpdateAll v (c'.protectedThat ord selects) (c', changes, problems)
    done.1 = c' ∧ Reports about adds c.serves c'.serves done.2.1 ∧
      ∀ (key : String) ex, c.dosProtectedResource[key]? = some ex → selects ex.obj = true →
        ∃ d ∈ done.2.1, d.about = some key := by
  have hps : ∀ p ∈ c'.protectedThat ord selects,
      c'.dosProtectedResource[getResourceKey p.objectMeta]? =
        some (createDosProtectedResourceEx v p).1 := by
    intro p hp
    obtain ⟨-, key, ex, hex, rfl⟩ := mem_protectedThat.mp hp
    obtain ⟨hcreated, hkey⟩ := hstored key ex (hsame ▸ hex)
    rw [hkey, ← hcreated, hex]
  obtain ⟨problems', heq⟩ := addOrUpdateAll_stored hps changes problems
  have hemits : ∀ (key : String) ex, c.dosProtectedResource[key]? = some ex →
      selects ex.obj = true → ∃ d ∈ changes ++ (c'.protectedThat ord selects).map (c'.changeOf v),
        d.about = some key := by
    intro key ex hex hsel
    have hin : ex.obj ∈ c'.protectedThat ord selects :=
      mem_protectedThat.mpr ⟨hsel, key, ex, hsame ▸ hex, rfl⟩
    refine ⟨_, mem_append_right changes (mem_map_of_mem hin), ?_⟩
    rw [about_changeOf, (hstored key ex hex).2]
  simp only [heq]
  refine ⟨trivial, Reports.of_touched (fun d hd key habout => ?_) fun key hne => ?_, hemits⟩
  · rcases mem_append.mp hd with hd | hd
    · rw [hchanges d hd] at habout
      cases habout
    · obtain ⟨p, hp, rfl⟩ := mem_map.mp hd
      rw [about_changeOf] at habout
      cases habout
      exact adds_changeOf (hps p hp)
  · obtain ⟨ex, hex, hfollows⟩ := exists_of_serves_ne hsame hne
    exact hemits key ex hex (hselects ex.obj hfollows)

/-- Two stores that differ in one entry only differ for the references that mention it. -/
theorem mentions_of_follow_ne {kind reference : String}
    {table table' : GoMap (StoredEx Unstructured)}
    (hsame : ∀ k : String, k ≠ key → table'[k]? = table[k]?)
    (hne : (follow kind table' p reference).isOk ≠ (follow kind table p reference).isOk) :
    reference ≠ "" ∧ mentions key p reference = true := by
  unfold follow at hne
  by_cases hempty : reference = ""
  · simp [hempty] at hne
  refine ⟨hempty, ?_⟩
  simp only [if_neg hempty, getValid] at hne
  by_contra hmentions
  refine hne ?_
  rw [hsame]
  intro hkey
  refine hmentions ?_
  unfold getNsName at hkey
  split at hkey <;> simp [mentions, ← hkey]

end Configuration

open AppProtectDos.Configuration

def Event.policyKey : Event → Option String
  | addOrUpdatePolicy obj => some (getResourceKey obj.objectMeta)
  | deletePolicy key => some key
  | _ => none

def Event.logConfKey : Event → Option String
  | addOrUpdateLogConf obj => some (getResourceKey obj.objectMeta)
  | deleteLogConf key => some key
  | _ => none

/-- A configuration that differs from `c` in the policy or in the log configuration the event
is about only. -/
def Event.CanLeadTo (e : Event) (c c' : Configuration) : Prop :=
  (∃ key table, e.policyKey = some key ∧ c' = { c with dosPolicies := table } ∧
    ∀ k : String, k ≠ key → table[k]? = c.dosPolicies[k]?) ∨
  ∃ key table, e.logConfKey = some key ∧ c' = { c with dosLogConfs := table } ∧
    ∀ k : String, k ≠ key → table[k]? = c.dosLogConfs[k]?

structure Event.Spec (v : Validation) (c c' : Configuration) (e : Event) (changes : List Change) :
    Prop where
  stored : c'.WellStored v
  enabled : c'.isDosEnabled = c.isDosEnabled
  reports : Reports about adds c.serves c'.serves changes
  emits : ∀ other key, e.CanLeadTo c other → other.serves key ≠ c.serves key →
    ∃ d ∈ changes, d.about = some key

variable {e : Event} {c' : Configuration}

theorem Event.CanLeadTo.same (h : e.CanLeadTo c c') :
    c'.dosProtectedResource = c.dosProtectedResource ∧ c'.isDosEnabled = c.isDosEnabled := by
  rcases h with ⟨_, _, _, rfl, _⟩ | ⟨_, _, _, rfl, _⟩ <;> exact ⟨rfl, rfl⟩

theorem Event.CanLeadTo.mentions_policy (hkey : e.policyKey = some key) (hlog : e.logConfKey = none)
    (h : e.CanLeadTo c c') {p : DosProtectedResource} (hne : c'.follows p ≠ c.follows p) :
    mentions key p p.apDosPolicy = true := by
  rcases h with ⟨_, table, hkey', rfl, hsame⟩ | ⟨_, _, hkey', -⟩
  · rw [hkey, some_inj] at hkey'
    subst hkey'
    have hpolicy : (follow "DosPolicy" table p p.apDosPolicy).isOk ≠ (c.followPolicy p).isOk :=
      fun hpolicy => hne (by
        simp only [follows, followLogConf]
        rw [← hpolicy]
        rfl)
    exact (mentions_of_follow_ne hsame hpolicy).2
  · rw [hlog] at hkey'
    cases hkey'

theorem Event.CanLeadTo.mentions_logConf (hkey : e.logConfKey = some key)
    (hpolicy : e.policyKey = none) (h : e.CanLeadTo c c') {p : DosProtectedResource}
    (hne : c'.follows p ≠ c.follows p) :
    (p.dosSecurityLog.any fun log => mentions key p log.apDosLogConf) = true := by
  rcases h with ⟨_, _, hkey', -⟩ | ⟨_, table, hkey', rfl, hsame⟩
  · rw [hpolicy] at hkey'
    cases hkey'
  rw [hkey, some_inj] at hkey'
  subst hkey'
  have hlog : (follow "DosLogConf" table p p.logConfReference).isOk ≠ (c.followLogConf p).isOk :=
    fun hlog => hne (by
      simp only [follows, followPolicy]
      rw [← hlog]
      rfl)
  obtain ⟨hempty, hmentions⟩ := mentions_of_follow_ne hsame hlog
  unfold DosProtectedResource.logConfReference at hempty hmentions
  cases hlog : p.dosSecurityLog with
  | none => simp [hlog] at hempty
  | some log => simpa [hlog] using hmentions

theorem Event.spec_of_loop (hstored : c.WellStored v) (hlead : e.CanLeadTo c c') (ord : Order)
    (hselects : ∀ other p, e.CanLeadTo c other → other.follows p ≠ c.follows p → selects p = true)
    {changes : List Change} (problems : List Problem) (hchanges : ∀ d ∈ changes, d.about = none) :
    let done := addOrUpdateAll v (c'.protectedThat ord selects) (c', changes, problems)
    e.Spec v c done.1 done.2.1 := by
  obtain ⟨hconfig, hreports, hemits⟩ := addOrUpdateAll_protectedThat hstored hlead.same.1 ord
    problems hchanges fun p => hselects c' p hlead
  intro done
  have hdone : done.1 = c' := hconfig
  rw [hdone]
  refine ⟨?_, hlead.same.2, hreports, fun other key hother hne => ?_⟩
  · intro key ex hex
    rw [hlead.same.1] at hex
    exact hstored key ex hex
  · obtain ⟨ex, hex, hfollows⟩ := exists_of_serves_ne hother.same.1 hne
    exact hemits key ex hex (hselects other ex.obj hother hfollows)

theorem Event.spec_deleteProtectedResource (hstored : c.WellStored v) (key : String) :
    (deleteProtectedResource key).Spec v c (c.deleteProtectedResource key).1
      (c.deleteProtectedResource key).2.1 := by
  have hcannot : ∀ other, ¬ (deleteProtectedResource key).CanLeadTo c other := by
    rintro other (⟨_, _, hkey, -⟩ | ⟨_, _, hkey, -⟩) <;> cases hkey
  unfold Configuration.deleteProtectedResource
  cases hex : c.dosProtectedResource[key]? with
  | none =>
    exact ⟨hstored, rfl, fun k => ⟨by simp, fun _ => rfl⟩, fun other k h => (hcannot other h).elim⟩
  | some ex =>
    refine ⟨fun k ex' hex' => ?_, rfl, Reports.of_touched (fun d hd k habout => ?_) fun k hne => ?_,
      fun other k h => (hcannot other h).elim⟩
    · rw [get_erase] at hex'
      split at hex'
      case isTrue => cases hex'
      case isFalse => exact hstored k ex' hex'
    · rw [mem_singleton.mp hd] at habout ⊢
      simp only [about, (hstored key ex hex).2, some_inj] at habout
      simp [adds, serves, habout]
    · refine ⟨_, mem_singleton_self _, ?_⟩
      simp only [about, (hstored key ex hex).2, some_inj]
      by_contra hkey
      refine hne ?_
      simp only [serves, get_erase, if_neg hkey]
      rfl

theorem Event.run_spec (hstored : c.WellStored v) (ord : Order) (e : Event) :
    e.Spec v c (e.run v ord c).1 (e.run v ord c).2.1 := by
  have hstoredChange : ∀ obj resource err, about ⟨.delete, resource⟩ = none →
      ∀ d ∈ (storedChange obj resource err).1, d.about = none := by
    rintro obj resource (_ | err) hnone d hd <;> rwa [mem_singleton.mp hd]
  have hdeleted : ∀ (ex : Option (StoredEx Unstructured)) (resource : _ → Resource),
      (∀ ex, about ⟨.delete, resource ex⟩ = none) →
      ∀ d ∈ ex.toList.map fun ex => mk .delete (resource ex), d.about = none := by
    intro ex resource hnone d hd
    obtain ⟨ex, -, rfl⟩ := mem_map.mp hd
    exact hnone ex
  cases e with
  | addOrUpdatePolicy obj =>
    refine spec_of_loop hstored (.inl ⟨_, _, rfl, rfl, fun k hk => ?_⟩) ord
      (fun other p hother => hother.mentions_policy rfl rfl) _ (hstoredChange _ _ _ rfl)
    rw [get_insert, if_neg hk.symm]
  | addOrUpdateLogConf obj =>
    refine spec_of_loop hstored (.inr ⟨_, _, rfl, rfl, fun k hk => ?_⟩) ord
      (fun other p hother => hother.mentions_logConf rfl rfl) _ (hstoredChange _ _ _ rfl)
    rw [get_insert, if_neg hk.symm]
  | addOrUpdateDosProtectedResource p =>
    refine ⟨wellStored_addOrUpdate hstored p, rfl, reports_addOrUpdate p, fun other key h => ?_⟩
    rcases h with ⟨_, _, hkey, -⟩ | ⟨_, _, hkey, -⟩ <;> cases hkey
  | deletePolicy key =>
    refine spec_of_loop hstored (.inl ⟨key, _, rfl, rfl, fun k hk => ?_⟩) ord
      (fun other p hother => hother.mentions_policy rfl rfl) _ (hdeleted _ _ fun _ => rfl)
    rw [get_erase, if_neg hk.symm]
  | deleteLogConf key =>
    refine spec_of_loop hstored (.inr ⟨key, _, rfl, rfl, fun k hk => ?_⟩) ord
      (fun other p hother => hother.mentions_logConf rfl rfl) _ (hdeleted _ _ fun _ => rfl)
    rw [get_erase, if_neg hk.symm]
  | deleteProtectedResource key => exact spec_deleteProtectedResource hstored key

/-- The log of a run continues a log that told the statuses the run started from. -/
theorem Event.runs_spec (events : List (Order × Event)) (hstored : c.WellStored v)
    {log : List Change} (hlog : latest about adds log = c.serves) :
    (runs v c events).1.WellStored v ∧
      (runs v c events).1.isDosEnabled = c.isDosEnabled ∧
      latest about adds (log ++ (runs v c events).2) =
        (runs v c events).1.serves := by
  induction events generalizing c log with
  | nil => exact ⟨hstored, rfl, by simpa [runs] using hlog⟩
  | cons event rest ih =>
    obtain ⟨ord, e⟩ := event
    have hspec := e.run_spec hstored ord
    obtain ⟨hend, henabled, hlatest⟩ := ih hspec.stored (hspec.reports.latest_append hlog)
    refine ⟨hend, henabled.trans hspec.enabled, ?_⟩
    simpa [runs, append_assoc] using hlatest

/-- With the DoS feature enabled, after every run the latest change for a protected resource
is `AddOrUpdate` exactly if looking it up succeeds; and an event on a policy or on a log
configuration returns a change for every resource it could make valid or invalid. -/
theorem latest_change_iff_valid (v : Validation) (events : List (Order × Event)) :
    let c := (runs v (newConfiguration true) events).1
    let log := (runs v (newConfiguration true) events).2
    (∀ parentNamespace nsName, latest about adds log
        (getNsName parentNamespace nsName) = (c.getValidDosEx parentNamespace nsName).isOk) ∧
      ∀ ord (e : Event) other parentNamespace nsName, e.CanLeadTo c other →
        (other.getValidDosEx parentNamespace nsName).isOk ≠
          (c.getValidDosEx parentNamespace nsName).isOk →
        ∃ d ∈ (e.run v ord c).2.1, d.about = some (getNsName parentNamespace nsName) := by
  have hnone : ∀ key : String, (newConfiguration true).dosProtectedResource[key]? = none := by
    simp [newConfiguration]
  have hserves : latest about adds [] = (newConfiguration true).serves := by
    funext key
    simp [latest, serves, hnone]
  obtain ⟨hstored, henabled, hlatest⟩ := runs_spec events
    (fun key ex hex => by simp [hnone] at hex) hserves
  refine ⟨fun parentNamespace nsName => ?_, fun ord e other ns name hother hne => ?_⟩
  · rw [isOk_getValidDosEx henabled]
    exact congrFun hlatest _
  · rw [isOk_getValidDosEx henabled, isOk_getValidDosEx (hother.same.2.trans henabled)] at hne
    exact (e.run_spec hstored ord).emits other _ hother hne

def Validation.permissive : Validation := ⟨fun _ => none, fun _ => ("", none), fun _ => none⟩

def webapp : DosProtectedResource where
  objectMeta := { nspace := .of "default", name := .of "webapp" }

/-- With the feature disabled the change is `AddOrUpdate`, and the lookup fails. -/
theorem disabled_configuration_reports_valid :
    let run := runs .permissive (newConfiguration false)
      [(.asGiven, .addOrUpdateDosProtectedResource webapp)]
    latest about adds run.2 "default/webapp" = true ∧
      (run.1.getValidDosEx "default" "webapp").isOk = false := by
  decide +kernel

end IngressController.AppProtectDos
