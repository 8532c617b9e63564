import Mathlib.Data.List.Basic

/-! # Logs of status reports

A component keeps a status for every key and appends reports to a log. A batch of reports
is faithful if the last word on every key is its status after the batch, and no key changes
its status without a report.
-/

namespace StatusLog

variable {α κ : Type} (about : α → Option κ) (tells : α → Bool)

/-- What the latest report on a key tells; a key nothing was reported of counts as `false`. -/
def latest [DecidableEq κ] (log : List α) (k : κ) : Bool :=
  ((log.reverse.find? fun a => about a = some k).map tells).getD false

/-- Every report on a key tells the new status, and a key without a report keeps its own. -/
def Reports (before after : κ → Bool) (log : List α) : Prop :=
  ∀ k, (∀ a ∈ log, about a = some k → tells a = after k) ∧
    ((∀ a ∈ log, about a ≠ some k) → after k = before k)

variable {about tells} {before after : κ → Bool}

theorem Reports.latest_append [DecidableEq κ] {log reports : List α}
    (h : Reports about tells before after reports) (hlog : latest about tells log = before) :
    latest about tells (log ++ reports) = after := by
  funext k
  obtain ⟨htells, hkeeps⟩ := h k
  have hbefore := congrFun hlog k
  unfold latest at hbefore ⊢
  rw [List.reverse_append, List.find?_append]
  cases hfind : reports.reverse.find? fun a => decide (about a = some k) with
  | none =>
    rw [Option.none_or, hbefore]
    refine (hkeeps fun a ha => ?_).symm
    simpa using List.find?_eq_none.mp hfind a (List.mem_reverse.mpr ha)
  | some a =>
    have hmem := List.mem_reverse.mp (List.mem_of_find?_eq_some hfind)
    have habout : about a = some k := by simpa using List.find?_some hfind
    simpa using htells a hmem habout

/-- Reports on the keys a change of the state can touch. -/
theorem Reports.of_touched {log : List α} (htells : ∀ a ∈ log, ∀ k, about a = some k →
      tells a = after k)
    (htouched : ∀ k, after k ≠ before k → ∃ a ∈ log, about a = some k) :
    Reports about tells before after log := by
  intro k
  refine ⟨fun a ha => htells a ha k, fun hnone => ?_⟩
  by_contra hne
  obtain ⟨a, ha, habout⟩ := htouched k hne
  exact hnone a ha habout

end StatusLog
