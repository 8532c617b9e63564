import Mathlib.Data.List.Count
import IngressController.Library.Champion

/-! # A place that is claimed again and again

Contenders claim one place one after another, and may claim it more than once. Whoever
takes the place is marked and the holder it takes it from loses the mark and is told; a
contender that does not get the place is told as well. A holder that claims its own place
again takes it from itself.
-/

namespace ContestedPlace

variable {α β : Type} [DecidableEq α] [LinearOrder β] (rank : α → β)

structure State (α : Type) where
  holder : Option α := none
  marked : α → Bool := fun _ => false
  told : α → ℕ := fun _ => 0

open State

def State.tell (x : α) (s : State α) : State α :=
  { s with told := fun z => if z = x then s.told z + 1 else s.told z }

def State.mark (x : α) (valid : Bool) (s : State α) : State α :=
  { s with marked := fun z => if z = x then valid else s.marked z }

/-- The holder loses its mark last, also to itself. -/
def claim (s : State α) (x : α) : State α :=
  match s.holder with
  | none => { s with holder := some x }.mark x true
  | some y =>
    if rank y < rank x then s.tell x
    else (({ s with holder := some x }.mark x true).mark y false).tell y

variable (claims : List α)

def run : State α := claims.foldl (claim rank) {}

theorem run_concat (x : α) : run rank (claims ++ [x]) = claim rank (run rank claims) x := by
  simp [run]

theorem claim_cases (s : State α) (x : α) :
    (s.holder = none ∧ claim rank s x = { s with holder := some x }.mark x true) ∨
    (∃ y, s.holder = some y ∧ rank y < rank x ∧ claim rank s x = s.tell x) ∨
    ∃ y, s.holder = some y ∧ ¬ rank y < rank x ∧
      claim rank s x = (({ s with holder := some x }.mark x true).mark y false).tell y := by
  unfold claim
  cases hholder : s.holder with
  | none => exact .inl ⟨rfl, rfl⟩
  | some y =>
    by_cases hwins : rank y < rank x
    · exact .inr (.inl ⟨y, rfl, hwins, if_pos hwins⟩)
    · exact .inr (.inr ⟨y, rfl, hwins, if_neg hwins⟩)

theorem holder_run : (run rank claims).holder = Champion.champion rank claims := by
  induction claims using List.reverseRecOn with
  | nil => rfl
  | append_singleton claims x ih =>
    rw [run_concat, Champion.champion_concat, ← ih]
    obtain ⟨hfree, hclaim⟩ | ⟨y, hy, hwins, hclaim⟩ | ⟨y, hy, hwins, hclaim⟩ :=
      claim_cases rank (run rank claims) x
    · rw [hclaim, hfree]
      rfl
    · rw [hclaim, hy, Champion.challenge, if_pos hwins]
      exact hy
    · rw [hclaim, hy, Champion.challenge, if_neg hwins]
      rfl

/-- All claims of a contender are answered, but one of the holder's. -/
theorem told_run (z : α) :
    (run rank claims).told z + (if (run rank claims).holder = some z then 1 else 0) =
      claims.count z := by
  induction claims using List.reverseRecOn with
  | nil => rfl
  | append_singleton claims x ih =>
    rw [run_concat, List.count_append, List.count_singleton, ← ih]
    obtain ⟨hfree, hclaim⟩ | ⟨y, hy, -, hclaim⟩ | ⟨y, hy, -, hclaim⟩ :=
      claim_cases rank (run rank claims) x
    · simp [hclaim, hfree, mark]
    · rw [hclaim, hy]
      by_cases hx : z = x
      · simp [State.tell, hy, hx]
        omega
      · simp [State.tell, hy, hx, Ne.symm hx]
    rw [hclaim, hy]
    by_cases hx : z = x
    · subst hx
      by_cases hzy : z = y
      · simp [State.tell, mark, hzy]
      · simp [State.tell, mark, hzy, Ne.symm hzy]
    · by_cases hzy : z = y
      · subst hzy
        simp [State.tell, mark, Ne.symm hx]
      · simp [State.tell, mark, hzy, Ne.symm hx, Ne.symm hzy]

/-- The holder is marked unless it claimed its place again. -/
theorem marked_run {claims : List α}
    (hinj : ∀ x ∈ claims, ∀ y ∈ claims, rank x = rank y → x = y) (z : α) :
    (run rank claims).marked z = true ↔
      (run rank claims).holder = some z ∧ (run rank claims).told z = 0 := by
  induction claims using List.reverseRecOn with
  | nil => simp [run]
  | append_singleton claims x ih =>
    have hinj' : ∀ x ∈ claims, ∀ y ∈ claims, rank x = rank y → x = y := fun a ha b hb =>
      hinj a (List.mem_append_left _ ha) b (List.mem_append_left _ hb)
    have hold := ih hinj'
    rw [run_concat]
    obtain ⟨hfree, hclaim⟩ | ⟨y, hy, hwins, hclaim⟩ | ⟨y, hy, hwins, hclaim⟩ :=
      claim_cases rank (run rank claims) x
    · have hnone : claims = [] := by
        rw [holder_run, Champion.champion_eq_none] at hfree
        exact hfree
      rw [hclaim, hnone]
      simp [run, mark, eq_comm]
    · have hxy : x ≠ y := fun heq => lt_irrefl _ (heq ▸ hwins)
      rw [hclaim]
      simp only [State.tell, hold, hy, Option.some.injEq]
      by_cases hzy : y = z
      · have hzx : z ≠ x := fun heq => hxy (heq.symm.trans hzy.symm)
        rw [if_neg hzx]
      · simp [hzy]
    · rw [hclaim]
      by_cases hxy : x = y
      · subst hxy
        by_cases hzx : z = x
        · simp [State.tell, mark, hzx]
        · simp [State.tell, mark, hzx, hold, hy, Ne.symm hzx]
      -- a contender that claimed before the holder lost the place to it for good
      have hnew : x ∉ claims := by
        intro hin
        rw [holder_run] at hy
        obtain ⟨hyin, hle⟩ := Champion.champion_spec rank hy
        have heq : rank x = rank y := le_antisymm (not_lt.mp hwins) (hle x hin)
        exact hxy (hinj' x hin y hyin heq)
      have hnottold : (run rank claims).told x = 0 := by
        have htold := told_run rank claims x
        rw [List.count_eq_zero_of_not_mem hnew] at htold
        omega
      by_cases hzx : z = x
      · simp [State.tell, mark, hzx, hxy, hnottold]
      · by_cases hzy : z = y
        · simp [State.tell, mark, hzy]
        · simp [State.tell, mark, hzx, Ne.symm hzx, hzy, hold, hy, Ne.symm hzy]

end ContestedPlace
