import Mathlib.Data.List.Basic

/-! # Computations that may panic

A Go function that indexes a slice or follows a pointer is modelled in `Option`:
`none` is a panic. A loop that returns at the first error checks its elements in
order and also ends at the first panic.
-/

namespace GoPanic

open List Option

variable {α : Type}

/-- An element that is read only under a condition. -/
def indexIf (cond : Prop) [Decidable cond] (l : List α) (i : Nat) (default : α) : Option α :=
  if cond then l[i]? else some default

/-- A guarded index that its condition keeps inside the list does not panic. -/
theorem exists_indexIf {cond : Prop} [Decidable cond] (l : List α) (i : Nat) (default : α)
    (h : cond → i < l.length) : ∃ a, indexIf cond l i default = some a := by
  unfold indexIf
  split
  case isTrue hcond => exact ⟨_, getElem?_eq_getElem (h hcond)⟩
  case isFalse => exact ⟨default, rfl⟩

/-- The first error of a loop over the elements; the inner `none` is a nil error. -/
def firstError (check : α → Option (Option String)) : List α → Option (Option String)
  | [] => some none
  | a :: rest =>
    match check a with
    | none => none
    | some (some err) => some (some err)
    | some none => firstError check rest

variable {check : α → Option (Option String)} {l : List α}

theorem firstError_cons_ok {a : α} (rest : List α) (h : check a = some none) :
    firstError check (a :: rest) = firstError check rest := by
  rw [firstError, h]

theorem firstError_eq_ok : firstError check l = some none ↔ ∀ a ∈ l, check a = some none := by
  induction l with
  | nil => simp [firstError]
  | cons a rest ih =>
    rw [forall_mem_cons, firstError]
    cases h : check a with
    | none => simp
    | some err =>
      cases err with
      | none => simpa using ih
      | some err => simp

theorem firstError_eq_panic :
    firstError check l = none ↔
      ∃ before a after, l = before ++ a :: after ∧ (∀ b ∈ before, check b = some none) ∧
        check a = none := by
  induction l with
  | nil => simp [firstError]
  | cons a rest ih =>
    cases h : check a with
    | none =>
      rw [firstError, h]
      simp only [true_iff]
      exact ⟨[], a, rest, rfl, by simp, h⟩
    | some err =>
      cases err with
      | none =>
        rw [firstError_cons_ok rest h, ih]
        constructor
        · rintro ⟨before, b, after, rfl, hbefore, hb⟩
          exact ⟨a :: before, b, after, rfl, forall_mem_cons.mpr ⟨h, hbefore⟩, hb⟩
        rintro ⟨before, b, after, heq, hbefore, hb⟩
        cases before with
        | nil =>
          cases heq
          rw [h] at hb
          cases hb
        | cons c before =>
          cases heq
          exact ⟨before, b, after, rfl, fun d hd => hbefore d (by simp [hd]), hb⟩
      | some err =>
        rw [firstError, h]
        simp only [reduceCtorEq, false_iff]
        rintro ⟨before, b, after, heq, hbefore, hb⟩
        cases before with
        | nil =>
          cases heq
          rw [h] at hb
          cases hb
        | cons c before =>
          cases heq
          have hc := hbefore a (by simp)
          rw [h] at hc
          cases hc

theorem isSome_firstError (h : ∀ a ∈ l, (check a).isSome) : (firstError check l).isSome := by
  rw [isSome_iff_ne_none]
  intro hpanic
  obtain ⟨before, a, after, rfl, -, ha⟩ := firstError_eq_panic.mp hpanic
  simpa [ha] using h a (by simp)

variable {β : Type}

/-- A loop that collects errors: it does not panic if its elements do not, and finds nothing if
nothing is wrong with them. -/
theorem collect_eq_nil {errors : α → Option (List β)} {good : α → Prop}
    (h : ∀ a ∈ l, ∃ errs, errors a = some errs ∧ (errs = [] ↔ good a)) :
    ∃ errss, l.mapM errors = some errss ∧ (errss.flatten = [] ↔ ∀ a ∈ l, good a) := by
  induction l with
  | nil => exact ⟨[], rfl, by simp⟩
  | cons a rest ih =>
    obtain ⟨errs, ha, hgood⟩ := h a (by simp)
    obtain ⟨errss, hrest, hgoods⟩ := ih fun b hb => h b (by simp [hb])
    refine ⟨errs :: errss, by simp [mapM_cons, ha, hrest], ?_⟩
    rw [flatten_cons, append_eq_nil_iff, hgood, hgoods, forall_mem_cons]

theorem exists_of_mem_mapM {f : α → Option β} {bs : List β} (h : l.mapM f = some bs)
    {b : β} (hb : b ∈ bs) : ∃ a ∈ l, f a = some b := by
  induction l generalizing bs with
  | nil =>
    obtain rfl : bs = [] := by simpa using h.symm
    cases hb
  | cons a l ih =>
    simp only [mapM_cons, Option.bind_eq_bind, Option.bind_eq_some_iff, Option.pure_def,
      Option.some.injEq] at h
    obtain ⟨first, hfirst, rest, hrest, rfl⟩ := h
    rcases mem_cons.mp hb with rfl | hb
    · exact ⟨a, mem_cons_self, hfirst⟩
    · obtain ⟨a', ha', heq⟩ := ih hrest hb
      exact ⟨a', mem_cons_of_mem a ha', heq⟩

theorem isSome_mapM {f : α → Option β} (h : ∀ a ∈ l, (f a).isSome) : (l.mapM f).isSome := by
  induction l with
  | nil => rfl
  | cons a rest ih =>
    obtain ⟨b, hb⟩ := isSome_iff_exists.mp (h a (by simp))
    obtain ⟨bs, hbs⟩ := isSome_iff_exists.mp (ih fun c hc => h c (by simp [hc]))
    simp [mapM_cons, hb, hbs]

/-- Steps in order, up to the first panic. -/
def runSteps (steps : List (α → Option α)) (state : α) : Option α :=
  steps.foldlM (fun state step => step state) state

variable {steps : List (α → Option α)}

theorem runSteps_append (steps' : List (α → Option α)) (state : α) :
    runSteps (steps ++ steps') state = (runSteps steps state).bind (runSteps steps') :=
  foldlM_append

theorem isSome_runSteps (h : ∀ step ∈ steps, ∀ state, (step state).isSome) (state : α) :
    (runSteps steps state).isSome := by
  induction steps generalizing state with
  | nil => rfl
  | cons step rest ih =>
    obtain ⟨state', hstep⟩ := isSome_iff_exists.mp (h step (by simp) state)
    have hrest := ih (fun s hs => h s (by simp [hs])) state'
    rwa [runSteps, foldlM_cons, hstep]

/-- Among steps of which the others do not panic, one whose panic does not depend on the state
decides. -/
theorem isSome_runSteps_middle {before after : List (α → Option α)} {step : α → Option α}
    {P : Prop} (hbefore : ∀ s ∈ before, ∀ state, (s state).isSome)
    (hstep : ∀ state, (step state).isSome ↔ P)
    (hafter : ∀ s ∈ after, ∀ state, (s state).isSome) (state : α) :
    (runSteps (before ++ step :: after) state).isSome ↔ P := by
  obtain ⟨state', hrun⟩ := isSome_iff_exists.mp (isSome_runSteps hbefore state)
  rw [runSteps_append, hrun, bind_some, runSteps, foldlM_cons, ← hstep state']
  cases hs : step state' with
  | none => simp
  | some state'' => simpa [runSteps] using isSome_runSteps hafter state''

variable {σ : Type} {f : σ → α → Option σ}

/-- What a loop preserves, for what it has gone through. -/
theorem foldlM_invariant {P : List α → σ → Prop} {state state' : σ} (hinit : P [] state)
    (hstep : ∀ done a s s', P done s → f s a = some s' → P (done ++ [a]) s')
    (hrun : l.foldlM f state = some state') : P l state' := by
  suffices ∀ (rest done : List α) (s : σ), P done s → rest.foldlM f s = some state' →
      P (done ++ rest) state' from this l [] state hinit hrun
  intro rest
  induction rest with
  | nil =>
    intro done s hs hrun
    obtain rfl : s = state' := by simpa using hrun
    simpa using hs
  | cons a rest ih =>
    intro done s hs hrun
    rw [foldlM_cons] at hrun
    obtain ⟨s', hs', hrest⟩ := Option.bind_eq_some_iff.mp hrun
    simpa using ih (done ++ [a]) s' (hstep done a s s' hs hs') hrest

/-- Whether a loop panics, if whether a step does so does not depend on the state. -/
theorem isSome_foldlM_iff {P : α → Prop} (hstep : ∀ a ∈ l, ∀ s, (f s a).isSome ↔ P a) (s : σ) :
    (l.foldlM f s).isSome ↔ ∀ a ∈ l, P a := by
  induction l generalizing s with
  | nil => simp
  | cons a l ih =>
    rw [foldlM_cons, forall_mem_cons, ← hstep a (by simp) s]
    cases hs : f s a with
    | none => simp
    | some s' => simpa using ih (fun b hb => hstep b (by simp [hb])) s'

/-- A block that returns a value has run through its first step. -/
theorem bind_eq_ok {ε β : Type} {x : Except ε α} {f : α → Except ε β} {b : β} :
    (x >>= f) = .ok b ↔ ∃ a, x = .ok a ∧ f a = .ok b := by
  cases x <;> simp [bind, Except.bind]

end GoPanic
