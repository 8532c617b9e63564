import Mathlib.Order.Lattice
import Mathlib.Data.List.Induction
import Mathlib.Data.List.Perm.Basic

/-! # The running champion

Contenders arrive one after another. The holder keeps its place only against
contenders it ranks strictly below, so the place ends with a contender of least
rank; when ranks are distinct that contender does not depend on the order.
-/

namespace Champion

variable {α β : Type} [LinearOrder β] (rank : α → β)

def challenge (holder : Option α) (x : α) : Option α :=
  match holder with
  | none => some x
  | some y => if rank y < rank x then some y else some x

def champion (xs : List α) : Option α := xs.foldl (challenge rank) none

@[simp] theorem champion_nil : champion rank ([] : List α) = none := rfl

theorem champion_concat (xs : List α) (x : α) :
    champion rank (xs ++ [x]) = challenge rank (champion rank xs) x := by
  simp [champion]

variable {xs : List α}

theorem champion_eq_none : champion rank xs = none ↔ xs = [] := by
  induction xs using List.reverseRecOn with
  | nil => simp
  | append_singleton xs x _ =>
    rw [champion_concat]
    unfold challenge
    split
    · simp
    · split <;> simp

theorem champion_spec {m : α} (h : champion rank xs = some m) :
    m ∈ xs ∧ ∀ x ∈ xs, rank m ≤ rank x := by
  induction xs using List.reverseRecOn generalizing m with
  | nil => simp at h
  | append_singleton xs x ih =>
    rw [champion_concat] at h
    cases hc : champion rank xs with
    | none =>
      have hxs := (champion_eq_none rank).mp hc
      subst hxs
      simp only [hc, challenge, Option.some.injEq] at h
      simp [h]
    | some y =>
      obtain ⟨hmem, hle⟩ := ih hc
      simp only [hc, challenge] at h
      split at h
      · rename_i hlt
        cases h
        refine ⟨List.mem_append_left _ hmem, fun z hz => ?_⟩
        rcases List.mem_append.mp hz with hz | hz
        · exact hle z hz
        · rw [List.mem_singleton.mp hz]
          exact le_of_lt hlt
      · rename_i hnot
        cases h
        refine ⟨by simp, fun z hz => ?_⟩
        rcases List.mem_append.mp hz with hz | hz
        · exact le_trans (not_lt.mp hnot) (hle z hz)
        · rw [List.mem_singleton.mp hz]

/-- The order of arrival does not matter if one contender alone has the least rank. -/
theorem champion_perm_of_least {ys : List α} (hperm : xs.Perm ys)
    (hleast : ∀ x ∈ xs, ∀ y ∈ xs, rank x = rank y → (∀ z ∈ xs, rank x ≤ rank z) → x = y) :
    champion rank xs = champion rank ys := by
  cases hxs : champion rank xs with
  | none =>
    have hnil := (champion_eq_none rank).mp hxs
    rw [hnil] at hperm
    rw [hperm.nil_eq.symm, champion_nil]
  | some x =>
    obtain ⟨hx, hxle⟩ := champion_spec rank hxs
    cases hys : champion rank ys with
    | none =>
      rw [(champion_eq_none rank).mp hys] at hperm
      rw [hperm.eq_nil] at hx
      cases hx
    | some y =>
      obtain ⟨hy, hyle⟩ := champion_spec rank hys
      have hin := hperm.mem_iff.mpr hy
      have heq := le_antisymm (hxle y hin) (hyle x (hperm.mem_iff.mp hx))
      rw [hleast x hx y hin heq hxle]

theorem champion_map {γ : Type} (f : γ → α) (xs : List γ) :
    champion rank (xs.map f) = (champion (fun x => rank (f x)) xs).map f := by
  induction xs using List.reverseRecOn with
  | nil => rfl
  | append_singleton xs x ih =>
    rw [List.map_append, List.map_singleton, champion_concat, champion_concat, ih]
    cases champion (fun x => rank (f x)) xs with
    | none => rfl
    | some y =>
      simp only [challenge, Option.map_some]
      split <;> rfl

/-- A contender that arrives last and that nobody ranks strictly below ends up holding the place. -/
theorem champion_concat_of_least {x : α} (h : ∀ y ∈ xs, ¬ rank y < rank x) :
    champion rank (xs ++ [x]) = some x := by
  rw [champion_concat]
  cases hc : champion rank xs with
  | none => rfl
  | some y => simp [challenge, h y (champion_spec rank hc).1]

end Champion
