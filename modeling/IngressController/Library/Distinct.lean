import Mathlib.Data.List.Nodup

/-! # The first element of each key

A loop that keeps an element unless its key was encountered before.
-/

namespace Distinct

open List

variable {α κ : Type} [DecidableEq κ]

def keepFirst (key : α → κ) : List κ → List α → List α
  | _, [] => []
  | encountered, a :: l =>
    if key a ∈ encountered then keepFirst key encountered l
    else a :: keepFirst key (key a :: encountered) l

def byKey (key : α → κ) (l : List α) : List α := keepFirst key [] l

variable {key : α → κ} {encountered : List κ} {l : List α} {a : α}

theorem mem_of_mem_keepFirst (h : a ∈ keepFirst key encountered l) :
    a ∈ l ∧ key a ∉ encountered := by
  induction l generalizing encountered with
  | nil => cases h
  | cons b l ih =>
    rw [keepFirst] at h
    split at h
    · obtain ⟨hin, hnot⟩ := ih h
      exact ⟨mem_cons_of_mem b hin, hnot⟩
    · rename_i hb
      rcases mem_cons.mp h with rfl | h
      · exact ⟨mem_cons_self, hb⟩
      · obtain ⟨hin, hnot⟩ := ih h
        exact ⟨mem_cons_of_mem b hin, fun hk => hnot (mem_cons_of_mem _ hk)⟩

theorem nodup_keepFirst (key : α → κ) (encountered : List κ) (l : List α) :
    ((keepFirst key encountered l).map key).Nodup := by
  induction l generalizing encountered with
  | nil => exact nodup_nil
  | cons b l ih =>
    rw [keepFirst]
    split
    · exact ih encountered
    · rw [map_cons, nodup_cons]
      refine ⟨fun hin => ?_, ih _⟩
      obtain ⟨c, hc, hkey⟩ := mem_map.mp hin
      exact (mem_of_mem_keepFirst hc).2 (hkey ▸ mem_cons_self)

/-- An element whose key is new stands for all later ones of that key. -/
theorem exists_mem_keepFirst (ha : a ∈ l) (hnew : key a ∉ encountered) :
    ∃ b ∈ keepFirst key encountered l, key b = key a := by
  induction l generalizing encountered with
  | nil => cases ha
  | cons b l ih =>
    rw [keepFirst]
    rcases mem_cons.mp ha with rfl | ha
    · rw [if_neg hnew]
      exact ⟨a, mem_cons_self, rfl⟩
    split
    · exact ih ha hnew
    · by_cases hk : key a = key b
      · exact ⟨b, mem_cons_self, hk.symm⟩
      · have hnew' : key a ∉ key b :: encountered := by simp [hk, hnew]
        obtain ⟨c, hc, hkey⟩ := ih ha hnew'
        exact ⟨c, mem_cons_of_mem b hc, hkey⟩

theorem mem_of_mem_byKey (h : a ∈ byKey key l) : a ∈ l := (mem_of_mem_keepFirst h).1

theorem nodup_byKey (key : α → κ) (l : List α) : ((byKey key l).map key).Nodup :=
  nodup_keepFirst key [] l

theorem exists_mem_byKey (ha : a ∈ l) : ∃ b ∈ byKey key l, key b = key a :=
  exists_mem_keepFirst ha (by simp)

/-- Where a key determines the element, nothing is lost. -/
theorem mem_byKey_iff (hinj : ∀ b ∈ l, key b = key a → b = a) : a ∈ byKey key l ↔ a ∈ l := by
  refine ⟨mem_of_mem_byKey, fun ha => ?_⟩
  obtain ⟨b, hb, hkey⟩ : ∃ b ∈ byKey key l, key b = key a := exists_mem_byKey ha
  rwa [hinj b (mem_of_mem_byKey hb) hkey] at hb

end Distinct
