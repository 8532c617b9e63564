import Mathlib.Data.List.Basic

/-! # Deterministic readers that may stop

A reader consumes one symbol at a time and either asks for more input or stops
with a verdict. The lemmas compose runs, cut them at any prefix, and carry a
step invariant or a step simulation over a whole run.
-/

namespace Stepper

/-- Outcome of consuming one symbol, or a whole word. -/
inductive Verdict (σ ρ : Type) where
  | more (s : σ)
  | stop (r : ρ)
deriving DecidableEq

/-- A run reports the verdict together with the input left unread. -/
def run {σ ρ α : Type} (step : σ → α → Verdict σ ρ) : σ → List α → Verdict σ (ρ × List α)
  | s, [] => .more s
  | s, a :: rest =>
    match step s a with
    | .more s' => run step s' rest
    | .stop r => .stop (r, rest)

variable {σ τ ρ π α : Type} {step : σ → α → Verdict σ ρ} {step' : τ → α → Verdict τ π}

@[simp] theorem run_nil (s : σ) : run step s [] = .more s := rfl

variable {s s' : σ}

theorem run_cons_of_more {a : α} (h : step s a = .more s') (rest : List α) :
    run step s (a :: rest) = run step s' rest := by
  simp [run, h]

theorem run_cons_of_stop {s : σ} {a : α} {r : ρ} (h : step s a = .stop r) (rest : List α) :
    run step s (a :: rest) = .stop (r, rest) := by
  simp [run, h]

theorem run_cons_more {a : α} {rest : List α} (h : run step s (a :: rest) = .more s') :
    ∃ mid, step s a = .more mid ∧ run step mid rest = .more s' := by
  cases hs : step s a with
  | more mid => exact ⟨mid, rfl, by rwa [run_cons_of_more hs] at h⟩
  | stop r => simp [run_cons_of_stop hs] at h

theorem run_append_of_more {xs : List α} (h : run step s xs = .more s')
    (ys : List α) : run step s (xs ++ ys) = run step s' ys := by
  induction xs generalizing s with
  | nil =>
    cases h
    rfl
  | cons a xs ih =>
    obtain ⟨mid, hstep, hrun⟩ := run_cons_more h
    rw [List.cons_append, run_cons_of_more hstep]
    exact ih hrun

/-- An unstopped run all of whose states, first and last included, are good. -/
def Stays (step : σ → α → Verdict σ ρ) (good : σ → Prop) : σ → List α → σ → Prop
  | s, [], s' => good s ∧ s = s'
  | s, a :: rest, s' => good s ∧ ∃ mid, step s a = .more mid ∧ Stays step good mid rest s'

namespace Stays

variable {good : σ → Prop} {s s' : σ}

theorem cons {mid : σ} {a : α} {rest : List α} (hs : good s) (hstep : step s a = .more mid)
    (h : Stays step good mid rest s') : Stays step good s (a :: rest) s' :=
  ⟨hs, mid, hstep, h⟩

theorem append {mid : σ} {xs ys : List α} (hx : Stays step good s xs mid)
    (hy : Stays step good mid ys s') : Stays step good s (xs ++ ys) s' := by
  induction xs generalizing s with
  | nil =>
    obtain ⟨-, rfl⟩ := hx
    exact hy
  | cons a xs ih =>
    obtain ⟨hs, next, hstep, hrest⟩ := hx
    exact cons hs hstep (ih hrest)

theorem run_eq {xs : List α} (h : Stays step good s xs s') : run step s xs = .more s' := by
  induction xs generalizing s with
  | nil => rw [run_nil, h.2]
  | cons a xs ih =>
    obtain ⟨-, mid, hstep, hrest⟩ := h
    rw [run_cons_of_more hstep]
    exact ih hrest

theorem good_of_prefix {xs ys : List α} (h : Stays step good s (xs ++ ys) s') :
    ∃ mid, run step s xs = .more mid ∧ good mid := by
  induction xs generalizing s with
  | nil =>
    cases ys <;> exact ⟨s, rfl, h.1⟩
  | cons a xs ih =>
    obtain ⟨-, mid, hstep, hrest⟩ := h
    rw [run_cons_of_more hstep]
    exact ih hrest

end Stays

end Stepper
