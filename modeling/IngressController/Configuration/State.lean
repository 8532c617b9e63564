import IngressController.Configuration.Resource

/-! # The state of the configuration

A store files every object under its own key, so a misfiled object cannot be
built. `Env` holds what a run of the controller fixes: the flags, the class
filter, the validators and the label selector library.
-/

namespace IngressController

open Table Std.ExtTreeMap

class ApiObject (α : Type) where
  objectMeta : α → ObjectMeta

instance : ApiObject Ingress := ⟨Ingress.objectMeta⟩
instance : ApiObject VirtualServer := ⟨VirtualServer.objectMeta⟩
instance : ApiObject VirtualServerRoute := ⟨VirtualServerRoute.objectMeta⟩
instance : ApiObject TransportServer := ⟨TransportServer.objectMeta⟩

/-- The key `namespace/name` of an object. -/
def objectKey {α : Type} [ApiObject α] (a : α) : String := getResourceKey (ApiObject.objectMeta a)

/-- Objects of one kind, each filed under its key. -/
structure Store (α : Type) [ApiObject α] where
  objects : GoMap α
  keyed : ∀ (k : String) a, objects[k]? = some a → objectKey a = k

namespace Store

variable {α : Type} [ApiObject α]

variable {s : Store α}

@[ext] theorem ext {t : Store α} (h : ∀ k : String, s.objects[k]? = t.objects[k]?) : s = t := by
  obtain ⟨m, hm⟩ := s
  obtain ⟨m', hm'⟩ := t
  have : m = m' := ext_getElem? h
  subst this
  rfl

def empty : Store α := ⟨∅, by simp⟩

def get (s : Store α) (k : String) : Option α := s.objects[k]?

def put (s : Store α) (a : α) : Store α where
  objects := s.objects.insert (objectKey a) a
  keyed k b h := by
    rw [get_insert] at h
    split at h
    · rename_i hk
      cases h
      exact hk
    · exact s.keyed k b h

def remove (s : Store α) (k : String) : Store α where
  objects := s.objects.erase k
  keyed k' b h := by
    rw [get_erase] at h
    split at h
    · cases h
    · exact s.keyed k' b h

/-- Store an object of the right class that passed validation; otherwise forget its key. -/
def accept (s : Store α) (correctClass : Bool) (validationError : Option String) (a : α) :
    Store α × Option String :=
  if correctClass then
    match validationError with
    | some err => (s.remove (objectKey a), some err)
    | none => (s.put a, none)
  else (s.remove (objectKey a), none)

def sortedKeys (s : Store α) : List String := s.objects.keys

def sorted (s : Store α) : List α := Table.values s.objects

@[simp] theorem get_empty (k : String) : (empty : Store α).get k = none := by
  simp [get, empty]

@[simp] theorem sortedKeys_empty : (empty : Store α).sortedKeys = [] := rfl

@[simp] theorem sorted_empty : (empty : Store α).sorted = [] := rfl

@[simp] theorem get_put (s : Store α) (a : α) (k : String) :
    (s.put a).get k = if objectKey a = k then some a else s.get k := by
  simp [get, put]

@[simp] theorem get_remove (s : Store α) (k k' : String) :
    (s.remove k).get k' = if k = k' then none else s.get k' := by
  simp [get, remove]

theorem key_of_get {k : String} {a : α} (h : s.get k = some a) : objectKey a = k :=
  s.keyed k a h

theorem put_of_get {a : α} (h : s.get (objectKey a) = some a) : s.put a = s := by
  apply ext
  intro k
  have hput := get_put s a k
  by_cases hk : objectKey a = k
  · subst hk
    rw [if_pos rfl] at hput
    exact hput.trans h.symm
  · rw [if_neg hk] at hput
    exact hput

theorem mem_sorted {a : α} : a ∈ s.sorted ↔ s.get (objectKey a) = some a := by
  rw [sorted, mem_values]
  constructor
  · rintro ⟨k, hk⟩
    rw [s.keyed k a hk]
    exact hk
  · exact fun h => ⟨_, h⟩

theorem mem_sortedKeys {k : String} :
    k ∈ s.sortedKeys ↔ ∃ a, s.get k = some a :=
  mem_keys_iff

theorem accept_cases (s : Store α) (correctClass : Bool) (validationError : Option String) (a : α) :
    (correctClass = true ∧ validationError = none) ∧
        s.accept correctClass validationError a = (s.put a, none) ∨
      ¬ (correctClass = true ∧ validationError = none) ∧
        s.accept correctClass validationError a =
          (s.remove (objectKey a), if correctClass then validationError else none) := by
  unfold accept
  cases correctClass with
  | false => exact .inr ⟨by simp, rfl⟩
  | true =>
    cases validationError with
    | none => exact .inl ⟨⟨rfl, rfl⟩, rfl⟩
    | some err => exact .inr ⟨by simp, rfl⟩

theorem map_objectKey_sorted (s : Store α) : s.sorted.map objectKey = s.sortedKeys := by
  have hkeys : s.sortedKeys = s.objects.toList.map Prod.fst :=
    (Std.ExtTreeMap.map_fst_toList_eq_keys).symm
  rw [hkeys, sorted, Table.values, List.map_map]
  apply List.map_congr_left
  intro e he
  exact s.keyed e.1 e.2 (mem_toList_iff_getElem?_eq_some.mp he)

theorem nodup_sortedKeys (s : Store α) : s.sortedKeys.Nodup := nodup_keys

end Store

/-- A label selector as the label library builds it. -/
structure LabelSelector where
  text : String
  selects : GoMap String → Bool

structure Env where
  hasCorrectIngressClass : ConfigurationObject → Bool
  isTLSPassthroughEnabled : Bool
  isCertManagerEnabled : Bool
  isDirectiveAutoadjustEnabled : Bool
  /-- Validators return the text of the error, or nothing for an accepted object. -/
  validateIngress : Ingress → Option String
  validateVirtualServer : VirtualServer → Option String
  validateVirtualServerRoute : VirtualServerRoute → Option String
  validateVirtualServerRouteForVirtualServer :
    VirtualServerRoute → String → List String → Option String
  validateTransportServer : TransportServer → Option String
  /-- Validating a GlobalConfiguration also drops its invalid listeners. -/
  validateGlobalConfiguration : GlobalConfiguration → GlobalConfiguration × Option String
  labelSelectorAsSelector : GoMap String → Except String LabelSelector
  labelSelectorText : GoMap String → String
  /-- An accepted Ingress has rules, each for another host. -/
  ingress_rules : ∀ ing, validateIngress ing = none →
    ing.spec.rules ≠ [] ∧ (ing.spec.rules.map IngressRule.host).Nodup
  /-- An accepted TransportServer uses the passthrough name and protocol together or not at all. -/
  transportServer_listener : ∀ ts, validateTransportServer ts = none →
    (ts.spec.listener.name = tlsPassthroughListenerName ↔
      ts.spec.listener.protocol = tlsPassthroughListenerProtocol)

/-- An environment that asks for no more than the configuration relies on. -/
def Env.permissive (passthrough : Bool) : Env where
  hasCorrectIngressClass _ := true
  isTLSPassthroughEnabled := passthrough
  isCertManagerEnabled := true
  isDirectiveAutoadjustEnabled := false
  validateIngress ing :=
    if ing.spec.rules ≠ [] ∧ (ing.spec.rules.map IngressRule.host).Nodup then none
    else some "spec.rules: Invalid value"
  validateVirtualServer _ := none
  validateVirtualServerRoute _ := none
  validateVirtualServerRouteForVirtualServer _ _ _ := none
  validateTransportServer ts :=
    if ts.spec.listener.name = tlsPassthroughListenerName ↔
        ts.spec.listener.protocol = tlsPassthroughListenerProtocol then none
    else some "spec.listener: Invalid value"
  validateGlobalConfiguration gc := (gc, none)
  labelSelectorAsSelector labels := .ok ⟨"", fun ls =>
    labels.toList.all fun (k, v) => ls[k]? = some v⟩
  labelSelectorText _ := ""
  ingress_rules ing h := by
    split at h
    · assumption
    · cases h
  transportServer_listener ts h := by
    split at h
    · assumption
    · cases h

/-- The loops of one operation whose visiting order Go leaves open. -/
inductive Loop where
  | minionIndex
  | transportServers
  | selector (virtualServer : String) (route : Nat)
  | listenerWarnings
deriving DecidableEq

abbrev Order := IterOrder Loop String

/-- A place of a TransportServer: a listener and a host. -/
structure ListenerHostKey where
  listenerName : String
  host : String
deriving DecidableEq

open ListenerHostKey

def ListenerHostKey.text (lhk : ListenerHostKey) : String := lhk.listenerName ++ "|" ++ lhk.host

/-- By the text, and by the parts where two keys have the same text. -/
instance : Ord ListenerHostKey where
  compare := compareLex (compareOn text)
    (compareLex (compareOn listenerName) (compareOn host))

instance : Std.TransOrd ListenerHostKey :=
  inferInstanceAs (Std.TransCmp (compareLex (compareOn text)
    (compareLex (compareOn listenerName) (compareOn host))))

instance : Std.LawfulEqOrd ListenerHostKey where
  compare_self {a} := Std.ReflCmp.compare_self
  eq_of_compare {a b} h := by
    have hparts : compareLex (compareOn text)
        (compareLex (compareOn listenerName) (compareOn host))
        a b = .eq := h
    simp only [compareLex_eq_eq, compareOn, Std.LawfulEqCmp.compare_eq_iff_eq] at hparts
    cases a
    cases b
    simp_all

structure Configuration where
  hosts : GoMap Resource := ∅
  listenerHosts : Table ListenerHostKey TransportServerConfiguration := ∅
  listenerMap : GoMap Listener := ∅
  ingresses : Store Ingress := Store.empty
  virtualServers : Store VirtualServer := Store.empty
  virtualServerRoutes : Store VirtualServerRoute := Store.empty
  transportServers : Store TransportServer := Store.empty
  /-- The keys of the minions of every host. -/
  minionsByHost : GoMap (GoMap Bool) := ∅
  globalConfiguration : Option GlobalConfiguration := none
  hostProblems : GoMap ConfigurationProblem := ∅
  listenerProblems : GoMap ConfigurationProblem := ∅
  startupComplete : Bool := false

end IngressController
