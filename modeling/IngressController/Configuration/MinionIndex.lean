import IngressController.Configuration.Runs

/-! # The minion index

The index is kept up incrementally. It always is the index of the stored minions by
their hosts, without empty entries, so the stored Ingresses determine it.
-/

namespace IngressController

open IngressController.Configuration Table Std.ExtTreeMap

def minionHost (ing : Ingress) : Option String :=
  if isMinion ing && !ing.spec.rules.isEmpty then some ing.firstHost else none

/-- The index of the keys that have a host. -/
structure IndexOf (hostOf : String → Option String) (index : GoMap (GoMap Bool)) : Prop where
  get_iff : ∀ (host key : String) b,
    ((index[host]?).getD ∅)[key]? = some b ↔ b = true ∧ hostOf key = some host
  nonempty : ∀ (host : String) keys, index[host]? = some keys → keys ≠ ∅

section Index

variable {hostOf : String → Option String} {index : GoMap (GoMap Bool)}

theorem IndexOf.empty : IndexOf (fun _ => none) ∅ where
  get_iff host key b := by simp
  nonempty host keys h := by simp at h

variable (h : IndexOf hostOf index)
include h

theorem IndexOf.unique {index' : GoMap (GoMap Bool)} (h' : IndexOf hostOf index') :
    index = index' := by
  have hkeys : ∀ host : String, (index[host]?).getD ∅ = (index'[host]?).getD ∅ := by
    intro host
    apply ext_getElem?
    intro key
    ext b
    rw [h.get_iff, h'.get_iff]
  apply ext_getElem?
  intro host
  have hhost := hkeys host
  cases hi : index[host]? with
  | none =>
    cases hi' : index'[host]? with
    | none => rfl
    | some keys' =>
      rw [hi, hi'] at hhost
      exact absurd hhost.symm (h'.nonempty host keys' hi')
  | some keys =>
    cases hi' : index'[host]? with
    | none =>
      rw [hi, hi'] at hhost
      exact absurd hhost (h.nonempty host keys hi)
    | some keys' =>
      rw [hi, hi'] at hhost
      exact congrArg some hhost

variable (ord : Order) (key : String)

theorem IndexOf.find : (ord.visit .minionIndex index.keys).find?
      (fun host => decide (((index[host]?).getD ∅)[key]? = some true)) = hostOf key := by
  cases hhost : hostOf key with
  | none =>
    rw [List.find?_eq_none]
    intro host _ hfound
    have := (h.get_iff host key true).mp (by simpa using hfound)
    rw [hhost] at this
    cases this.2
  | some host =>
    have hget := (h.get_iff host key true).mpr ⟨rfl, hhost⟩
    have hin : host ∈ ord.visit .minionIndex index.keys := by
      rw [ord.mem_visit, mem_keys_iff]
      cases hi : index[host]? with
      | none => simp [hi] at hget
      | some keys => exact ⟨keys, rfl⟩
    cases hf : (ord.visit .minionIndex index.keys).find?
        (fun host => decide (((index[host]?).getD ∅)[key]? = some true)) with
    | none =>
      rw [List.find?_eq_none] at hf
      exact absurd (by simpa using hget) (hf host hin)
    | some host' =>
      have hfound := List.find?_some hf
      have := (h.get_iff host' key true).mp (by simpa using hfound)
      rw [← hhost, this.2]

theorem IndexOf.congr {hostOf' : String → Option String} (hsame : ∀ key, hostOf' key = hostOf key) :
    IndexOf hostOf' index :=
  funext hsame ▸ h

/-- Entries other than those of the changed host keep their meaning. -/
theorem IndexOf.put {index' : GoMap (GoMap Bool)} {hostOf' : String → Option String} (host : String)
    (keys : Option (GoMap Bool)) (hne : keys ≠ some ∅)
    (hget : ∀ host' : String, index'[host']? = if host = host' then keys else index[host']?)
    (hkeys : ∀ (key : String) b, (keys.getD ∅)[key]? = some b ↔ b = true ∧ hostOf' key = some host)
    (hsame : ∀ key host', host' ≠ host → (hostOf' key = some host' ↔ hostOf key = some host')) :
    IndexOf hostOf' index' where
  get_iff host' key b := by
    rw [hget]
    by_cases hhost : host = host'
    · subst hhost
      rw [if_pos rfl]
      exact hkeys key b
    · rw [if_neg hhost, h.get_iff, hsame key host' (Ne.symm hhost)]
  nonempty host' keys' hkeys' := by
    rw [hget] at hkeys'
    split at hkeys'
    · exact fun hempty => hne (hempty ▸ hkeys')
    · exact h.nonempty host' keys' hkeys'

theorem IndexOf.remove :
    IndexOf (fun k => if k = key then none else hostOf k)
      (removeMinionFromIndex ord key index) := by
  simp only [removeMinionFromIndex]
  rw [h.find ord key]
  cases hhost : hostOf key with
  | none =>
    have hsame : (fun k => if k = key then none else hostOf k) = hostOf := by
      funext k
      by_cases hk : k = key
      · rw [if_pos hk, hk, hhost]
      · rw [if_neg hk]
    rw [hsame]
    exact h
  | some host =>
    have hkeys : ∀ (k : String) b, (((index[host]?).getD ∅).erase key)[k]? = some b ↔
        b = true ∧ (if k = key then none else hostOf k) = some host := by
      intro k b
      rw [get_erase]
      by_cases hk : key = k
      · simp [hk]
      · rw [if_neg hk, if_neg (Ne.symm hk), h.get_iff]
    have hsame : ∀ k host', host' ≠ host →
        ((if k = key then none else hostOf k) = some host' ↔ hostOf k = some host') := by
      intro k host' hne
      by_cases hk : k = key
      · rw [if_pos hk, hk, hhost]
        simp [Ne.symm hne]
      · rw [if_neg hk]
    simp only
    split
    · rename_i hempty
      rw [isEmpty_iff.mp hempty] at hkeys
      exact h.put host none (by simp) (fun _ => get_erase ..) hkeys hsame
    · rename_i hnonempty
      exact h.put host (some _) (by simpa [isEmpty_iff] using hnonempty) (fun _ => get_insert ..)
        hkeys hsame

theorem IndexOf.insert {key : String} (host : String) (hnew : hostOf key = none) :
    IndexOf (fun k => if k = key then some host else hostOf k)
      (index.insert host (((index[host]?).getD ∅).insert key true)) := by
  refine h.put host (some _) (fun hempty => insert_ne_empty (Option.some.inj hempty))
    (fun _ => get_insert ..) (fun k b => ?_) (fun k host' hne => ?_)
  · rw [Option.getD_some, get_insert]
    by_cases hk : key = k
    · simp [hk, eq_comm]
    · rw [if_neg hk, if_neg (Ne.symm hk), h.get_iff]
  · by_cases hk : k = key
    · rw [if_pos hk, hk, hnew]
      simp [Ne.symm hne]
    · rw [if_neg hk]

theorem IndexOf.update (ing : Option Ingress) :
    IndexOf (fun k => if k = key then ing.bind minionHost else hostOf k)
      (updateMinionIndex ord key ing index) := by
  have hremoved := h.remove ord key
  unfold updateMinionIndex
  cases ing with
  | none => exact hremoved
  | some ing =>
    simp only [Option.bind_some, minionHost]
    split
    · apply (hremoved.insert ing.firstHost (if_pos rfl)).congr
      intro k
      by_cases hk : k = key
      · rw [if_pos hk, if_pos hk]
      · rw [if_neg hk, if_neg hk, if_neg hk]
    · exact hremoved

omit h

end Index

/-- The index is that of the stored minions. -/
def MinionsIndexed (c : Configuration) : Prop :=
  IndexOf (fun key => (c.ingresses.get key).bind minionHost) c.minionsByHost

theorem MinionsIndexed.init (startupComplete : Bool) : MinionsIndexed { startupComplete } := by
  unfold MinionsIndexed
  simpa using IndexOf.empty

theorem Call.Stores.minionsIndexed {env : Env} {ord : Order} {c c' : Configuration} {call : Call}
    (h : Call.Stores env ord c call c') (hc : MinionsIndexed c) : MinionsIndexed c' := by
  cases h with
  | putIngress ing hclass hvalid =>
    apply (IndexOf.update hc ord (objectKey ing) (some ing)).congr
    intro k
    by_cases hk : objectKey ing = k
    · simp [hk]
    · simp [hk, Ne.symm hk]
  | dropIngress ing hdrop =>
    apply (IndexOf.update hc ord (objectKey ing) none).congr
    intro k
    by_cases hk : objectKey ing = k
    · simp [hk]
    · simp [hk, Ne.symm hk]
  | removeIngress key hk =>
    apply (IndexOf.remove hc ord key).congr
    intro k
    by_cases hk : key = k
    · simp [hk]
    · simp [hk, Ne.symm hk]
  | putVirtualServer | dropVirtualServer | removeVirtualServer | putVirtualServerRoute
  | dropVirtualServerRoute | removeVirtualServerRoute | putTransportServer | dropTransportServer
  | removeTransportServer | setListeners | clearListeners => exact hc

theorem MinionsIndexed.run {env : Env} {c : Configuration} (h : MinionsIndexed c) (ord : Order)
    (call : Call) : MinionsIndexed (call.run env ord c).1 := by
  obtain ⟨hs, hrun⟩ | ⟨stored, hs, hrun⟩ := Call.run_eq env ord c call
  · rw [hrun]
    exact h
  · have hsame := call.sameStores_rebuild env ord stored
    have hstored := (Call.stores_of_store hs).minionsIndexed h
    rw [MinionsIndexed, hrun.1, hsame.ingresses, hsame.minionsByHost]
    exact hstored

end IngressController
