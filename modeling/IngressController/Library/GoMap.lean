import Std.Data.ExtTreeMap
import Mathlib.Data.List.Basic
import Mathlib.Data.String.Basic

/-! # Go maps

A map is an extensional search tree, so two maps with the same entries are
equal and `keys` lists the keys in sorted order. A loop over a map visits the
keys in an order the program does not choose: `IterOrder` supplies one for every
loop.
-/

abbrev Table (κ α : Type) [Ord κ] := Std.ExtTreeMap κ α compare

abbrev GoMap (α : Type) := Table String α

/-- Each of two options finds its value in the other, up to a function. -/
theorem map_eq_map_of_exists {α γ : Type} {f : α → γ} {o o' : Option α}
    (h : ∀ a, o = some a → ∃ a', o' = some a' ∧ f a' = f a)
    (h' : ∀ a, o' = some a → ∃ a', o = some a' ∧ f a' = f a) : o.map f = o'.map f := by
  cases o with
  | some a =>
    obtain ⟨a', rfl, hf⟩ := h a rfl
    rw [Option.map_some, Option.map_some, hf]
  | none =>
    cases o' with
    | none => rfl
    | some a =>
      obtain ⟨a', hnone, -⟩ := h' a rfl
      cases hnone

namespace Table

open List Std.ExtTreeMap

variable {κ α β : Type} [Ord κ] [Std.TransOrd κ] [Std.LawfulEqOrd κ]

instance [DecidableEq κ] [DecidableEq α] : DecidableEq (Table κ α) := fun a b =>
  decidable_of_iff (a.toList = b.toList)
    ⟨fun h => ext_toList (h ▸ List.Perm.refl _), fun h => by rw [h]⟩

def values (m : Table κ α) : List α := m.toList.map Prod.snd

variable {m : Table κ α}

theorem mem_values {a : α} : a ∈ values m ↔ ∃ k : κ, m[k]? = some a := by
  simp [values, mem_toList_iff_getElem?_eq_some]

variable {k : κ}

theorem mem_keys_iff : k ∈ m.keys ↔ ∃ a, m[k]? = some a := by
  rw [Std.ExtTreeMap.mem_keys, mem_iff_isSome_getElem?, Option.isSome_iff_exists]

theorem values_eq_filterMap (m : Table κ α) : values m = m.keys.filterMap fun k => m[k]? := by
  have hkeys : m.keys = m.toList.map Prod.fst := map_fst_toList_eq_keys.symm
  rw [hkeys, filterMap_map, values, ← filterMap_eq_map]
  apply filterMap_congr
  intro e he
  exact (mem_toList_iff_getElem?_eq_some.mp he).symm

/-- The keys are the one sorted list of the keys. -/
theorem keys_eq_of_sorted {l : List κ}
    (hsorted : l.Pairwise fun a b => compare a b = .lt) (hmem : ∀ k, k ∈ l ↔ ∃ a, m[k]? = some a) :
    m.keys = l := by
  have hne : ∀ {a b : κ}, compare a b = .lt → a ≠ b := by
    intro a b hlt heq
    rw [heq, Std.compare_self] at hlt
    cases hlt
  have hperm : m.keys.Perm l := by
    rw [perm_ext_iff_of_nodup (ordered_keys.imp hne) (hsorted.imp hne)]
    intro k
    rw [mem_keys_iff, hmem]
  refine List.Perm.eq_of_pairwise (fun a b _ _ hab hba => ?_) ordered_keys hsorted
    hperm
  have hgt := Std.OrientedCmp.gt_of_lt hba
  rw [hab] at hgt
  cases hgt

/-- Tables that agree entry by entry under a function have lists of values that do. -/
theorem map_values_congr {γ : Type} {m' : Table κ β} {f : α → γ} {g : β → γ}
    (h : ∀ k : κ, m[k]?.map f = m'[k]?.map g) : (values m).map f = (values m').map g := by
  have hkeys : m.keys = m'.keys := by
    apply keys_eq_of_sorted ordered_keys
    intro k
    rw [mem_keys_iff, ← Option.isSome_iff_exists, ← Option.isSome_iff_exists,
      ← Option.isSome_map (f := g), ← h k, Option.isSome_map]
  rw [values_eq_filterMap, values_eq_filterMap, map_filterMap, map_filterMap, hkeys]
  exact filterMap_congr fun k _ => h k

@[simp] theorem get_insert (m : Table κ α) (k k' : κ) (a : α) [Decidable (k = k')] :
    (m.insert k a)[k']? = if k = k' then some a else m[k']? := by
  rw [Std.ExtTreeMap.getElem?_insert]
  by_cases h : k = k' <;> simp [h]

@[simp] theorem get_erase (m : Table κ α) (k k' : κ) [Decidable (k = k')] :
    (m.erase k)[k']? = if k = k' then none else m[k']? := by
  rw [getElem?_erase]
  by_cases h : k = k' <;> simp [h]

@[simp] theorem get_modify (m : Table κ α) (k k' : κ) (f : α → α) [Decidable (k = k')] :
    (m.modify k f)[k']? = if k = k' then m[k']?.map f else m[k']? := by
  rw [Std.ExtTreeMap.getElem?_modify]
  by_cases h : k = k' <;> simp [h]

theorem get_filterMap (m : Table κ α) (f : κ → α → Option β) (k : κ) :
    (m.filterMap f)[k]? = m[k]?.bind (f k) := by
  rw [getElem?_filterMap]
  simp

/-- A loop that writes one entry for each element, the entry depending on the key only. -/
theorem get_foldl_insert [DecidableEq κ] (l : List β) (key : β → κ) (val : κ → α)
    (m : Table κ α) (k : κ) :
    (l.foldl (fun m b => m.insert (key b) (val (key b))) m)[k]? =
      if k ∈ l.map key then some (val k) else m[k]? := by
  induction l generalizing m with
  | nil => simp
  | cons b l ih =>
    rw [foldl_cons, ih, get_insert]
    by_cases hk : k ∈ l.map key
    · simp [hk]
    · by_cases hb : key b = k
      · simp [hb]
      · simp [hk, hb, Ne.symm hb]

theorem exists_get_insert [DecidableEq κ] {k' : κ} {a : α} :
    (∃ a', (m.insert k' a)[k]? = some a') ↔ (∃ a', m[k]? = some a') ∨ k' = k := by
  rw [get_insert]
  by_cases hk : k' = k <;> simp [hk]

omit [Std.LawfulEqOrd κ] in
/-- A loop that never drops an entry has those that were there and those its turns add. -/
theorem exists_get_foldl {step : Table κ α → β → Table κ α} {Q : β → Prop}
    (hstep : ∀ m b, (∃ a, (step m b)[k]? = some a) ↔ (∃ a, m[k]? = some a) ∨ Q b)
    (l : List β) (m : Table κ α) :
    (∃ a, (l.foldl step m)[k]? = some a) ↔ (∃ a, m[k]? = some a) ∨ ∃ b ∈ l, Q b := by
  induction l generalizing m with
  | nil => simp
  | cons b l ih =>
    rw [foldl_cons, ih, hstep, or_assoc]
    simp

variable {key : β → κ}

/-- A loop that writes one entry for each element leaves the other entries alone. -/
theorem get_foldl_write_of_notMem [DecidableEq κ] {l : List β} (val : β → α)
    (m : Table κ α) (h : k ∉ l.map key) :
    (l.foldl (fun m b => m.insert (key b) (val b)) m)[k]? = m[k]? := by
  induction l generalizing m with
  | nil => rfl
  | cons b l ih =>
    rw [map_cons, mem_cons, not_or] at h
    rw [foldl_cons, ih _ h.2, get_insert, if_neg (Ne.symm h.1)]

theorem get_foldl_write [DecidableEq κ] {l : List β} (val : β → α)
    (hinj : ∀ b ∈ l, ∀ b' ∈ l, key b = key b' → b = b') (m : Table κ α) {b : β} (hb : b ∈ l) :
    (l.foldl (fun m b => m.insert (key b) (val b)) m)[key b]? = some (val b) := by
  induction l generalizing m with
  | nil => cases hb
  | cons a l ih =>
    have htail : ∀ b ∈ l, ∀ b' ∈ l, key b = key b' → b = b' := fun b hin b' hin' =>
      hinj b (mem_cons_of_mem a hin) b' (mem_cons_of_mem a hin')
    rw [foldl_cons]
    by_cases hl : key b ∈ l.map key
    · obtain ⟨b', hin, hkey⟩ := mem_map.mp hl
      rw [hinj b' (mem_cons_of_mem a hin) b hb hkey] at hin
      exact ih htail _ hin
    · have hba : b = a := by
        obtain hba | hin := mem_cons.mp hb
        · exact hba
        · exact absurd (mem_map_of_mem hin) hl
      rw [get_foldl_write_of_notMem val _ hl, get_insert, hba, if_pos rfl]

/-- Such a loop depends only on which elements it visits, if their keys tell them apart. -/
theorem foldl_write_congr [DecidableEq κ] {l l' : List β} (val : β → α)
    (hmem : ∀ b, b ∈ l ↔ b ∈ l') (hinj : ∀ b ∈ l, ∀ b' ∈ l, key b = key b' → b = b')
    (m : Table κ α) :
    l.foldl (fun m b => m.insert (key b) (val b)) m =
      l'.foldl (fun m b => m.insert (key b) (val b)) m := by
  have hinj' : ∀ b ∈ l', ∀ b' ∈ l', key b = key b' → b = b' := fun b hin b' hin' =>
    hinj b ((hmem b).mpr hin) b' ((hmem b').mpr hin')
  apply Std.ExtTreeMap.ext_getElem?
  intro k
  by_cases hk : k ∈ l.map key
  · obtain ⟨b, hin, rfl⟩ := mem_map.mp hk
    rw [get_foldl_write val hinj m hin, get_foldl_write val hinj' m ((hmem b).mp hin)]
  · have hk' : k ∉ l'.map key := by
      intro hin
      obtain ⟨b, hb, hkey⟩ := mem_map.mp hin
      exact hk (mem_map.mpr ⟨b, (hmem b).mpr hb, hkey⟩)
    rw [get_foldl_write_of_notMem val m hk, get_foldl_write_of_notMem val m hk']

/-- A value a loop may overwrite is the last one written, or the one before the loop. -/
theorem foldl_lastWrite {σ β γ : Type} (step : σ → β → σ) (read : σ → Option γ)
    (write : β → Option γ) (hstep : ∀ s b, read (step s b) = (write b).or (read s)) (l : List β)
    (s : σ) : read (l.foldl step s) = (l.reverse.findSome? write).or (read s) := by
  induction l generalizing s with
  | nil => rfl
  | cons b l ih =>
    rw [foldl_cons, ih, hstep, reverse_cons, findSome?_append, Option.or_assoc]
    cases hb : write b <;> simp [hb]

def file (name : α → κ) (m : Table κ α) (l : List α) : Table κ α :=
  l.foldl (fun m a => m.insert (name a) a) m

def Filed (name : α → κ) (m : Table κ α) : Prop :=
  ∀ (k : κ) a, m[k]? = some a → name a = k

variable {name : α → κ}

theorem Filed.file [DecidableEq κ] (h : Filed name m) (l : List α) :
    Filed name (file name m l) := by
  induction l generalizing m with
  | nil => exact h
  | cons a l ih =>
    apply ih
    intro k b hb
    rw [get_insert] at hb
    split at hb
    · cases hb
      assumption
    · exact h k b hb

theorem get_file_cases [DecidableEq κ] {l : List α} {a : α} (h : (file name m l)[k]? = some a) :
    a ∈ l ∧ name a = k ∨ k ∉ l.map name ∧ m[k]? = some a := by
  induction l generalizing m with
  | nil => exact .inr ⟨by simp, h⟩
  | cons b l ih =>
    obtain ⟨hin, hname⟩ | ⟨hnot, hget⟩ := ih (m := m.insert (name b) b) h
    · exact .inl ⟨mem_cons_of_mem b hin, hname⟩
    rw [get_insert] at hget
    split at hget
    · cases hget
      exact .inl ⟨mem_cons_self, by assumption⟩
    · rename_i hk
      refine .inr ⟨?_, hget⟩
      rw [map_cons, mem_cons, not_or]
      exact ⟨Ne.symm hk, hnot⟩

theorem exists_get_file [DecidableEq κ] {l : List α} :
    (∃ a, (file name m l)[k]? = some a) ↔ k ∈ l.map name ∨ ∃ a, m[k]? = some a := by
  induction l generalizing m with
  | nil => simp [file]
  | cons b l ih =>
    have hstep : file name m (b :: l) = file name (m.insert (name b) b) l := rfl
    rw [hstep, ih]
    by_cases hk : name b = k
    · simp [hk]
    · simp [hk, Ne.symm hk]

end Table

/-- Visiting orders for the loops of one run, indexed by the loop. -/
structure IterOrder (loop κ : Type) where
  visit : loop → List κ → List κ
  perm : ∀ l keys, (visit l keys).Perm keys

namespace IterOrder

variable {loop κ α : Type}

/-- Every loop in the order the keys are given. -/
def asGiven : IterOrder loop κ where
  visit _ keys := keys
  perm _ keys := List.Perm.refl keys

theorem mem_visit (ord : IterOrder loop κ) (l : loop) (keys : List κ) (k : κ) :
    k ∈ ord.visit l keys ↔ k ∈ keys :=
  (ord.perm l keys).mem_iff

theorem nodup_visit (ord : IterOrder loop κ) (l : loop) {keys : List κ} (h : keys.Nodup) :
    (ord.visit l keys).Nodup :=
  (ord.perm l keys).nodup_iff.mpr h

/-- Some order visits a given permutation of one loop's keys, and other loops take theirs as
given. -/
theorem exists_visit [DecidableEq loop] [DecidableEq κ] (l : loop) {keys order : List κ}
    (h : order.Perm keys) : ∃ ord : IterOrder loop κ, ord.visit l keys = order ∧
      ∀ l' ≠ l, ∀ ks, ord.visit l' ks = ks := by
  refine ⟨⟨fun l' ks => if l' = l ∧ ks = keys then order else ks, ?_⟩, by simp, ?_⟩
  · intro l' ks
    by_cases hk : l' = l ∧ ks = keys
    · simpa [hk] using h
    · simp [hk]
  · intro l' hne ks
    simp [hne]

end IterOrder
