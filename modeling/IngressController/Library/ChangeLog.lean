import IngressController.Library.GoMap
import Mathlib.Data.Finset.Basic

/-! # Change logs between two tables

Two versions of a table place resources at keys. A log deletes the resources
that lost their places and then adds or updates those that won or changed one;
squashing keeps one entry for each resource. Replayed on a set of resource names
that contains the old table's, the log turns the old table's names into the
new table's, provided an entry left out of the log stands for an unchanged
resource.
-/

namespace ChangeLog

open List

inductive Operation where
  | delete
  | addOrUpdate
deriving DecidableEq

/-- A change of a resource; `error` is reported with it. -/
structure Change (R : Type) where
  op : Operation
  resource : R
  error : String := ""
deriving DecidableEq

variable {κ R : Type} [Ord κ] [Std.TransOrd κ]

section Build

variable (ident : R → String)

def deleteChanges (removed updated : List κ) (old new : Table κ R) : List (Change R) :=
  removed.filterMap (fun k => old[k]?.map fun r => { op := .delete, resource := r }) ++
  updated.filterMap (fun k =>
    match old[k]?, new[k]? with
    | some o, some n => if ident o ≠ ident n then some { op := .delete, resource := o } else none
    | _, _ => none)

def updateChanges (updated added : List κ) (new : Table κ R) : List (Change R) :=
  (updated ++ added).filterMap fun k =>
    new[k]?.map fun r => { op := .addOrUpdate, resource := r }

/-- Deletes first, so that an update never meets a config that is about to go. -/
def createResourceChanges (removed updated added : List κ) (old new : Table κ R) :
    List (Change R) :=
  deleteChanges ident removed updated old new ++ updateChanges updated added new

/-- The changes of every resource, in their order. -/
def changesPerResource (changes : List (Change R)) : GoMap (List (Change R)) :=
  changes.foldl (fun m c =>
    m.insert (ident c.resource) ((m[ident c.resource]?).getD [] ++ [c])) ∅

/-- The second pass: at the first change of a resource emit its last one. -/
def emitSquashed : GoMap (List (Change R)) → List (Change R) → List (Change R)
  | _, [] => []
  | pending, c :: rest =>
    match pending[ident c.resource]? with
    | none => emitSquashed pending rest
    | some resChanges =>
      resChanges.getLast?.toList ++ emitSquashed (pending.erase (ident c.resource)) rest

/-- One change for each resource, deletes first. -/
def squashResourceChanges (changes : List (Change R)) : List (Change R) :=
  let squashed := emitSquashed ident (changesPerResource ident changes) changes
  squashed.filter (·.op = .delete) ++ squashed.filter (·.op = .addOrUpdate)

/-- Delete removes the name of the resource, add-or-update inserts it. -/
def replay (names : Finset String) (changes : List (Change R)) : Finset String :=
  changes.foldl (fun s c =>
    match c.op with
    | .delete => s.erase (ident c.resource)
    | .addOrUpdate => insert (ident c.resource) s) names

end Build

variable {ident : R → String}

theorem changesPerResource_get (changes : List (Change R)) (name : String) :
    (changesPerResource ident changes)[name]? =
      if (changes.filter fun c => ident c.resource = name) = [] then none
      else some (changes.filter fun c => ident c.resource = name) := by
  unfold changesPerResource
  induction changes using reverseRecOn with
  | nil => simp
  | append_singleton changes c ih =>
    rw [foldl_append, foldl_cons, foldl_nil, Table.get_insert]
    by_cases h : ident c.resource = name
    · subst h
      rw [ih]
      by_cases he : (changes.filter fun d => ident d.resource = ident c.resource) = [] <;>
        simp [filter_append, he]
    · rw [if_neg h, ih]
      simp [filter_append, h]

variable {c : Change R} {changes : List (Change R)}

theorem mem_emitSquashed {pending : GoMap (List (Change R))} :
    c ∈ emitSquashed ident pending changes ↔
      ∃ name group, name ∈ changes.map (fun d => ident d.resource) ∧
        pending[name]? = some group ∧ group.getLast? = some c := by
  induction changes generalizing pending with
  | nil => simp [emitSquashed]
  | cons d rest ih =>
    rw [emitSquashed]
    cases hp : pending[ident d.resource]? with
    | none =>
      rw [ih]
      constructor <;> rintro ⟨name, group, hname, hget, hlast⟩
      · exact ⟨name, group, mem_cons_of_mem _ hname, hget, hlast⟩
      · rcases mem_cons.mp hname with rfl | hname
        · rw [hp] at hget
          cases hget
        · exact ⟨name, group, hname, hget, hlast⟩
    | some resChanges =>
      rw [mem_append, ih]
      constructor
      · rintro (h | ⟨name, group, hname, hget, hlast⟩)
        · exact ⟨_, resChanges, mem_cons_self .., hp, by simpa using h⟩
        · rw [Table.get_erase] at hget
          split at hget
          · cases hget
          · exact ⟨name, group, mem_cons_of_mem _ hname, hget, hlast⟩
      rintro ⟨name, group, hname, hget, hlast⟩
      by_cases heq : ident d.resource = name
      · subst heq
        rw [hp] at hget
        cases hget
        left
        simpa using hlast
      · right
        refine ⟨name, group, ?_, by rw [Table.get_erase, if_neg heq, hget], hlast⟩
        exact (mem_cons.mp hname).resolve_left (Ne.symm heq)

theorem mem_squash_iff_emitted : c ∈ squashResourceChanges ident changes ↔
    c ∈ emitSquashed ident (changesPerResource ident changes) changes := by
  unfold squashResourceChanges
  cases hop : c.op <;> simp [mem_append, mem_filter, hop]

/-- The squashed log holds the last change of every resource. -/
theorem mem_squashResourceChanges : c ∈ squashResourceChanges ident changes ↔
      (changes.filter fun d => ident d.resource = ident c.resource).getLast? = some c := by
  rw [mem_squash_iff_emitted, mem_emitSquashed]
  constructor
  · rintro ⟨name, group, -, hget, hlast⟩
    rw [changesPerResource_get] at hget
    split at hget
    · cases hget
    · cases hget
      have hin := mem_of_getLast? hlast
      have hname : ident c.resource = name := by simpa using (mem_filter.mp hin).2
      rw [hname]
      exact hlast
  · intro hlast
    have hin := mem_of_getLast? hlast
    refine ⟨ident c.resource, _, mem_map_of_mem (mem_filter.mp hin).1, ?_, hlast⟩
    rw [changesPerResource_get, if_neg (ne_nil_of_mem hin)]

theorem exists_last_of_mem (ident : R → String) (h : c ∈ changes) :
    ∃ d ∈ changes, ident d.resource = ident c.resource ∧ (changes.filter
      fun e => ident e.resource = ident d.resource).getLast? = some d := by
  have hne : (changes.filter fun e => ident e.resource = ident c.resource) ≠ [] :=
    ne_nil_of_mem (mem_filter.mpr ⟨h, by simp⟩)
  obtain ⟨hin, hname⟩ := mem_filter.mp (getLast_mem hne)
  refine ⟨_, hin, of_decide_eq_true hname, ?_⟩
  rw [of_decide_eq_true hname]
  exact getLast?_eq_some_getLast hne

theorem mem_of_mem_squash (h : c ∈ squashResourceChanges ident changes) : c ∈ changes :=
  (mem_filter.mp (mem_of_getLast? (mem_squashResourceChanges.mp h))).1

theorem nodup_names_emitSquashed {pending : GoMap (List (Change R))}
    (hfiled : ∀ (name : String) group, pending[name]? = some group →
      ∀ c ∈ group, ident c.resource = name) (changes : List (Change R)) :
    ((emitSquashed ident pending changes).map fun c => ident c.resource).Nodup := by
  induction changes generalizing pending with
  | nil => exact nodup_nil
  | cons d rest ih =>
    rw [emitSquashed]
    cases hp : pending[ident d.resource]? with
    | none => exact ih hfiled
    | some resChanges =>
      have herased : ∀ (name : String) group,
          (pending.erase (ident d.resource))[name]? = some group →
            ident d.resource ≠ name ∧ ∀ c ∈ group, ident c.resource = name := by
        intro name group hget
        rw [Table.get_erase] at hget
        split at hget
        · cases hget
        · rename_i hne
          exact ⟨hne, hfiled name group hget⟩
      rw [map_append, nodup_append']
      refine ⟨?_, ih fun name group hget => (herased name group hget).2, ?_⟩
      · cases resChanges.getLast? <;> simp
      -- what follows was not erased
      intro name hlast hrest
      obtain ⟨c, hc, rfl⟩ := mem_map.mp hlast
      obtain ⟨c', hc', hname⟩ := mem_map.mp hrest
      obtain ⟨name', group, -, hget, hlast'⟩ := mem_emitSquashed.mp hc'
      have hc'name := (herased name' group hget).2 c' (mem_of_getLast? hlast')
      have hcname := hfiled _ _ hp c (mem_of_getLast? (by simpa using hc))
      apply (herased name' group hget).1
      rw [← hc'name, hname, hcname]

theorem nodup_names_squash (changes : List (Change R)) :
    ((squashResourceChanges ident changes).map fun c => ident c.resource).Nodup := by
  have hfiled : ∀ (name : String) group, (changesPerResource ident changes)[name]? = some group →
      ∀ c ∈ group, ident c.resource = name := by
    intro name group hget c hc
    rw [changesPerResource_get] at hget
    split at hget
    · cases hget
    · cases hget
      simpa using (mem_filter.mp hc).2
  have hperm : (squashResourceChanges ident changes).Perm
      (emitSquashed ident (changesPerResource ident changes) changes) := by
    unfold squashResourceChanges
    have hops : ∀ c : Change R, decide (c.op = .addOrUpdate) = !decide (c.op = .delete) := by
      intro c
      cases c.op <;> rfl
    simp only [hops]
    exact filter_append_perm _ _
  exact (hperm.map _).nodup_iff.mpr (nodup_names_emitSquashed hfiled changes)

theorem squashResourceChanges_eq_nil : squashResourceChanges ident changes = [] ↔ changes = [] := by
  constructor
  · intro h
    rw [eq_nil_iff_forall_not_mem] at h ⊢
    intro c hc
    obtain ⟨d, -, -, hlast⟩ := exists_last_of_mem ident hc
    exact h d (mem_squashResourceChanges.mpr hlast)
  · rintro rfl
    rfl

variable {name : String}

theorem mem_replay_deletes {names : Finset String} (h : ∀ c ∈ changes, c.op = .delete) :
    name ∈ replay ident names changes ↔
      name ∈ names ∧ ∀ c ∈ changes, ident c.resource ≠ name := by
  unfold replay
  induction changes generalizing names with
  | nil => simp
  | cons c rest ih =>
    rw [foldl_cons, h c (mem_cons_self ..)]
    rw [ih fun d hd => h d (mem_cons_of_mem _ hd)]
    simp only [Finset.mem_erase, forall_mem_cons, ne_comm]
    tauto

theorem mem_replay_updates {names : Finset String} (h : ∀ c ∈ changes, c.op = .addOrUpdate) :
    name ∈ replay ident names changes ↔
      name ∈ names ∨ ∃ c ∈ changes, ident c.resource = name := by
  unfold replay
  induction changes generalizing names with
  | nil => simp
  | cons c rest ih =>
    rw [foldl_cons, h c (mem_cons_self ..)]
    rw [ih fun d hd => h d (mem_cons_of_mem _ hd)]
    simp only [Finset.mem_insert, exists_mem_cons_iff, @eq_comm _ name]
    tauto

theorem replay_congr {names : Finset String} {xs ys : List (Change R)}
    (h : xs.map (fun c => (c.op, ident c.resource)) = ys.map fun c => (c.op, ident c.resource)) :
    replay ident names xs = replay ident names ys := by
  induction xs generalizing ys names with
  | nil =>
    obtain rfl := map_eq_nil_iff.mp h.symm
    rfl
  | cons x xs ih =>
    cases ys with
    | nil => cases h
    | cons y ys =>
      simp only [map_cons, cons.injEq, Prod.mk.injEq] at h
      obtain ⟨⟨hop, hident⟩, hrest⟩ := h
      simp only [replay, foldl_cons, hop, hident]
      exact ih hrest

theorem replay_append (names : Finset String) (xs ys : List (Change R)) :
    replay ident names (xs ++ ys) = replay ident (replay ident names xs) ys := by
  simp [replay]

theorem mem_replay_squash {names : Finset String} :
    name ∈ replay ident names (squashResourceChanges ident changes) ↔
      (∃ c ∈ squashResourceChanges ident changes, c.op = .addOrUpdate ∧ ident c.resource = name) ∨
      name ∈ names ∧
        ∀ c ∈ squashResourceChanges ident changes, c.op = .delete → ident c.resource ≠ name := by
  simp only [mem_squash_iff_emitted]
  unfold squashResourceChanges
  rw [replay_append, mem_replay_updates (by simp), mem_replay_deletes (by simp)]
  simp only [mem_filter, decide_eq_true_eq, and_imp, and_assoc]
  rw [or_comm]

/-! ## Deletes followed by updates -/

section DeletesThenUpdates

variable {deletes updates : List (Change R)}

theorem exists_update_squash (hdel : ∀ c ∈ deletes, c.op = .delete)
    (hupd : ∀ c ∈ updates, c.op = .addOrUpdate) :
    (∃ c ∈ squashResourceChanges ident (deletes ++ updates),
      c.op = .addOrUpdate ∧ ident c.resource = name) ↔
      ∃ c ∈ updates, ident c.resource = name := by
  constructor
  · rintro ⟨c, hc, hop, hname⟩
    rcases mem_append.mp (mem_of_mem_squash hc) with hin | hin
    · rw [hdel c hin] at hop
      cases hop
    · exact ⟨c, hin, hname⟩
  · rintro ⟨c, hc, rfl⟩
    obtain ⟨d, hd, hname, hlast⟩ := exists_last_of_mem ident hc
    refine ⟨d, ?_, hupd d hd, hname⟩
    rw [mem_squashResourceChanges, filter_append, getLast?_append, hlast]
    rfl

theorem exists_delete_squash (hdel : ∀ c ∈ deletes, c.op = .delete)
    (hupd : ∀ c ∈ updates, c.op = .addOrUpdate) :
    (∃ c ∈ squashResourceChanges ident (deletes ++ updates),
      c.op = .delete ∧ ident c.resource = name) ↔
      (∃ c ∈ deletes, ident c.resource = name) ∧ ¬ ∃ c ∈ updates, ident c.resource = name := by
  constructor
  · rintro ⟨c, hc, hop, rfl⟩
    have hnot : ¬ ∃ d ∈ updates, ident d.resource = ident c.resource := by
      rintro ⟨d, hd, hname⟩
      obtain ⟨e, he, hename, hlast⟩ := exists_last_of_mem ident hd
      rw [mem_squashResourceChanges, ← hname, ← hename, filter_append, getLast?_append, hlast,
        Option.some_or, Option.some.injEq] at hc
      rw [← hc, hupd e he] at hop
      cases hop
    refine ⟨?_, hnot⟩
    rcases mem_append.mp (mem_of_mem_squash hc) with hin | hin
    · exact ⟨c, hin, rfl⟩
    · exact absurd ⟨c, hin, rfl⟩ hnot
  · rintro ⟨⟨c, hc, rfl⟩, hnot⟩
    obtain ⟨d, hd, hname, hlast⟩ := exists_last_of_mem ident hc
    have hnil : (updates.filter fun e => ident e.resource = ident d.resource) = [] := by
      rw [filter_eq_nil_iff]
      intro e he hename
      exact hnot ⟨e, he, (of_decide_eq_true hename).trans hname⟩
    refine ⟨d, ?_, hdel d hd, hname⟩
    rw [mem_squashResourceChanges, filter_append, hnil, append_nil, hlast]

end DeletesThenUpdates

/-! ## The log of two tables -/

variable {old new : Table κ R} {removed updated added : List κ}

abbrev tableLog (ident : R → String) (removed updated added : List κ) (old new : Table κ R) :
    List (Change R) :=
  squashResourceChanges ident (createResourceChanges ident removed updated added old new)

theorem mem_deleteChanges : c ∈ deleteChanges ident removed updated old new ↔
    ∃ k o, old[k]? = some o ∧ c = { op := .delete, resource := o } ∧
      (k ∈ removed ∨ k ∈ updated ∧ ∃ n, new[k]? = some n ∧ ident o ≠ ident n) := by
  simp only [deleteChanges, mem_append, mem_filterMap, Option.map_eq_some_iff]
  constructor
  · rintro (⟨k, hk, o, ho, rfl⟩ | ⟨k, hk, h⟩)
    · exact ⟨k, o, ho, rfl, .inl hk⟩
    split at h
    · rename_i o n ho hn
      split at h
      · rename_i hne
        cases h
        exact ⟨k, o, ho, rfl, .inr ⟨hk, n, hn, hne⟩⟩
      · cases h
    · cases h
  · rintro ⟨k, o, ho, rfl, hk | ⟨hk, n, hn, hne⟩⟩
    · exact .inl ⟨k, hk, o, ho, rfl⟩
    · refine .inr ⟨k, hk, ?_⟩
      rw [ho, hn]
      exact if_pos hne

theorem mem_updateChanges : c ∈ updateChanges updated added new ↔
    ∃ k n, (k ∈ updated ∨ k ∈ added) ∧ new[k]? = some n ∧
      c = { op := .addOrUpdate, resource := n } := by
  simp only [updateChanges, mem_filterMap, Option.map_eq_some_iff, mem_append]
  constructor
  · rintro ⟨k, hk, n, hn, rfl⟩
    exact ⟨k, n, hk, hn, rfl⟩
  · rintro ⟨k, n, hk, hn, rfl⟩
    exact ⟨k, hk, n, hn, rfl⟩

theorem op_of_mem_deleteChanges (h : c ∈ deleteChanges ident removed updated old new) :
    c.op = .delete := by
  obtain ⟨k, o, -, rfl, -⟩ := mem_deleteChanges.mp h
  rfl

theorem op_of_mem_updateChanges (h : c ∈ updateChanges updated added new) :
    c.op = .addOrUpdate := by
  obtain ⟨k, n, -, -, rfl⟩ := mem_updateChanges.mp h
  rfl

/-- The resource is at an updated or added place. -/
def Gains (ident : R → String) (updated added : List κ) (new : Table κ R) (name : String) : Prop :=
  ∃ k n, (k ∈ updated ∨ k ∈ added) ∧ new[k]? = some n ∧ ident n = name

theorem exists_updateChanges : (∃ c ∈ updateChanges updated added new, ident c.resource = name) ↔
      Gains ident updated added new name := by
  constructor
  · rintro ⟨c, hc, hname⟩
    obtain ⟨k, n, hk, hn, rfl⟩ := mem_updateChanges.mp hc
    exact ⟨k, n, hk, hn, hname⟩
  · rintro ⟨k, n, hk, hn, hname⟩
    exact ⟨_, mem_updateChanges.mpr ⟨k, n, hk, hn, rfl⟩, hname⟩

theorem exists_deleteChanges :
    (∃ c ∈ deleteChanges ident removed updated old new, ident c.resource = name) ↔
      ∃ k o, old[k]? = some o ∧ ident o = name ∧
        (k ∈ removed ∨ k ∈ updated ∧ ∃ n, new[k]? = some n ∧ ident n ≠ name) := by
  constructor
  · rintro ⟨c, hc, rfl⟩
    obtain ⟨k, o, ho, rfl, hk⟩ := mem_deleteChanges.mp hc
    exact ⟨k, o, ho, rfl, by simpa only [ne_comm] using hk⟩
  · rintro ⟨k, o, ho, rfl, hk⟩
    exact ⟨_, mem_deleteChanges.mpr ⟨k, o, ho, rfl, by simpa only [ne_comm] using hk⟩, rfl⟩

theorem error_of_mem_tableLog (h : c ∈ tableLog ident removed updated added old new) :
    c.error = "" := by
  obtain hin | hin := mem_append.mp (mem_of_mem_squash h)
  · obtain ⟨k, o, -, rfl, -⟩ := mem_deleteChanges.mp hin
    rfl
  · obtain ⟨k, n, -, -, rfl⟩ := mem_updateChanges.mp hin
    rfl

/-- A delete shows a resource of the old table, an update one of the new table. -/
theorem resource_of_mem_tableLog (h : c ∈ tableLog ident removed updated added old new) :
    (c.op = .delete ∧ ∃ k : κ, old[k]? = some c.resource) ∨
      (c.op = .addOrUpdate ∧ ∃ k : κ, new[k]? = some c.resource) := by
  obtain hin | hin := mem_append.mp (mem_of_mem_squash h)
  · obtain ⟨k, o, ho, rfl, -⟩ := mem_deleteChanges.mp hin
    exact .inl ⟨rfl, k, ho⟩
  · obtain ⟨k, n, -, hn, rfl⟩ := mem_updateChanges.mp hin
    exact .inr ⟨rfl, k, hn⟩

theorem exists_update_tableLog : (∃ c ∈ tableLog ident removed updated added old new,
      c.op = .addOrUpdate ∧ ident c.resource = name) ↔ Gains ident updated added new name := by
  rw [tableLog, createResourceChanges, exists_update_squash
    (fun _ h => op_of_mem_deleteChanges h) (fun _ h => op_of_mem_updateChanges h)]
  exact exists_updateChanges

/-- The resource lost one of its places. -/
def Loses (ident : R → String) (old new : Table κ R) (name : String) : Prop :=
  ∃ (k : κ) (o : R), old[k]? = some o ∧ ident o = name ∧ ∀ n, new[k]? = some n → ident n ≠ name

/-- One change for each resource, deletes first: an update if it gained a place, a delete if it
only lost some. -/
structure IsNetEffect (ident : R → String) (updated added : List κ) (old new : Table κ R)
    (log : List (Change R)) : Prop where
  single : (log.map fun c => ident c.resource).Nodup
  ordered : ∃ deletes updates, log = deletes ++ updates ∧ (∀ c ∈ deletes, c.op = .delete) ∧
    ∀ c ∈ updates, c.op = .addOrUpdate
  update_iff : ∀ name, (∃ c ∈ log, c.op = .addOrUpdate ∧ ident c.resource = name) ↔
    Gains ident updated added new name
  delete_iff : ∀ name, (∃ c ∈ log, c.op = .delete ∧ ident c.resource = name) ↔
    Loses ident old new name ∧ ¬ Gains ident updated added new name

theorem isNetEffect_tableLog
    (hremoved : ∀ k, k ∈ removed ↔ (∃ o, old[k]? = some o) ∧ new[k]? = none)
    (hkept : ∀ k o n, old[k]? = some o → new[k]? = some n → k ∉ updated → ident o = ident n) :
    IsNetEffect ident updated added old new (tableLog ident removed updated added old new) where
  single := nodup_names_squash _
  ordered := ⟨_, _, rfl, by simp, by simp⟩
  update_iff _ := exists_update_tableLog
  delete_iff name := by
    rw [tableLog, createResourceChanges, exists_delete_squash
      (fun _ h => op_of_mem_deleteChanges h) (fun _ h => op_of_mem_updateChanges h),
      exists_deleteChanges, exists_updateChanges]
    refine and_congr_left fun _ => ⟨?_, ?_⟩
    · rintro ⟨k, o, ho, hname, hk⟩
      refine ⟨k, o, ho, hname, fun n hn => ?_⟩
      obtain hk | ⟨-, n', hn', hne⟩ := hk
      · cases ((hremoved k).mp hk).2.symm.trans hn
      · cases hn'.symm.trans hn
        exact hne
    · rintro ⟨k, o, ho, hname, hne⟩
      refine ⟨k, o, ho, hname, ?_⟩
      cases hn : new[k]? with
      | none => exact .inl ((hremoved k).mpr ⟨⟨o, ho⟩, hn⟩)
      | some n =>
        refine .inr ⟨?_, n, rfl, hne n hn⟩
        by_contra hup
        exact hne n hn ((hkept k o n ho hn hup).symm.trans hname)

theorem notMem_updated_of_nil
    (h : tableLog ident removed updated added old new = []) {k : κ} {n : R}
    (hn : new[k]? = some n) : k ∉ updated := by
  intro hk
  obtain ⟨c, hc, -⟩ := exists_update_tableLog.mpr ⟨k, n, .inl hk, hn, rfl⟩
  rw [h] at hc
  cases hc

variable [Std.LawfulEqOrd κ]

def names (ident : R → String) (table : Table κ R) : Finset String :=
  ((Table.values table).map ident).toFinset

theorem mem_names {table : Table κ R} :
    name ∈ names ident table ↔ ∃ (k : κ) (r : R), table[k]? = some r ∧ ident r = name := by
  simp only [names, mem_toFinset, mem_map, Table.mem_values, ← exists_and_right]
  exact exists_comm

/-- What the three key lists of a comparison mean. A place that is in neither list
kept its resource, and that resource kept all its other places. -/
structure Detects (ident : R → String) (old new : Table κ R) (removed updated added : List κ) :
    Prop where
  removed_iff : ∀ k, k ∈ removed ↔ (∃ o, old[k]? = some o) ∧ new[k]? = none
  added_iff : ∀ k, k ∈ added ↔ old[k]? = none ∧ ∃ n, new[k]? = some n
  kept_ident : ∀ k o n, old[k]? = some o → new[k]? = some n → k ∉ updated → ident o = ident n
  kept_places : ∀ k o n, old[k]? = some o → new[k]? = some n → k ∉ updated →
    ∀ (k' : κ) o', old[k']? = some o' → ident o' = ident o →
      ∃ n', new[k']? = some n' ∧ ident n' = ident o

theorem exists_delete_tableLog (h : Detects ident old new removed updated added) :
    (∃ c ∈ tableLog ident removed updated added old new,
      c.op = .delete ∧ ident c.resource = name) ↔
      name ∈ names ident old ∧ name ∉ names ident new := by
  rw [(isNetEffect_tableLog h.removed_iff h.kept_ident).delete_iff name, mem_names, mem_names]
  constructor
  · rintro ⟨⟨k, o, ho, hname, hlost⟩, hnot⟩
    refine ⟨⟨k, o, ho, hname⟩, ?_⟩
    rintro ⟨k', n', hn', hname'⟩
    -- the place `k'` was not logged, so its resource was kept at every place, `k` included
    have hup : k' ∉ updated := fun hu => hnot ⟨k', n', .inl hu, hn', hname'⟩
    obtain ⟨o', ho'⟩ : ∃ o', old[k']? = some o' := by
      rw [← Option.ne_none_iff_exists']
      intro hnone
      exact hnot ⟨k', n', .inr ((h.added_iff k').mpr ⟨hnone, n', hn'⟩), hn', hname'⟩
    have hident := h.kept_ident k' o' n' ho' hn' hup
    obtain ⟨n, hn, hnn⟩ := h.kept_places k' o' n' ho' hn' hup k o ho
      (hname.trans (hname'.symm.trans hident.symm))
    exact hlost n hn (hnn.trans (hident.trans hname'))
  · rintro ⟨⟨k, o, ho, hname⟩, hnot⟩
    exact ⟨⟨k, o, ho, hname, fun n hn hn' => hnot ⟨k, n, hn, hn'⟩⟩,
      fun ⟨k', n', _, hn', hname'⟩ => hnot ⟨k', n', hn', hname'⟩⟩

/-- A resource that keeps a place unchanged is not deleted. -/
def SparesKept (ident : R → String) (updated : List κ) (old new : Table κ R)
    (log : List (Change R)) : Prop :=
  ∀ k o n, old[k]? = some o → new[k]? = some n → k ∉ updated →
    ∀ c ∈ log, c.op = .delete → ident c.resource ≠ ident o

theorem sparesKept_tableLog (h : Detects ident old new removed updated added) :
    SparesKept ident updated old new (tableLog ident removed updated added old new) := by
  intro k o n ho hn hup c hc hop heq
  have hgone := ((exists_delete_tableLog h).mp ⟨c, hc, hop, rfl⟩).2
  exact hgone (mem_names.mpr ⟨k, n, hn, (h.kept_ident k o n ho hn hup).symm.trans heq.symm⟩)

theorem mem_replay_tableLog (h : Detects ident old new removed updated added)
    {active : Finset String} (hactive : names ident old ⊆ active) :
    name ∈ replay ident active (tableLog ident removed updated added old new) ↔
      name ∈ names ident new ∨ name ∈ active ∧ name ∉ names ident old := by
  have hdel : (∀ c ∈ tableLog ident removed updated added old new,
      c.op = .delete → ident c.resource ≠ name) ↔
      ¬ (name ∈ names ident old ∧ name ∉ names ident new) := by
    rw [← exists_delete_tableLog h]
    simp only [not_exists, not_and, ne_eq]
  rw [mem_replay_squash, hdel, exists_update_tableLog]
  constructor
  · rintro (⟨k, n, -, hn, hname⟩ | ⟨hin, hkeep⟩)
    · exact .inl (mem_names.mpr ⟨k, n, hn, hname⟩)
    · by_cases hnew : name ∈ names ident new
      · exact .inl hnew
      · exact .inr ⟨hin, fun hold => hkeep ⟨hold, hnew⟩⟩
  rintro (hnew | ⟨hin, hold⟩)
  · obtain ⟨k, n, hn, hname⟩ := mem_names.mp hnew
    cases ho : old[k]? with
    | none => exact .inl ⟨k, n, .inr ((h.added_iff k).mpr ⟨ho, n, hn⟩), hn, hname⟩
    | some o =>
      by_cases hup : k ∈ updated
      · exact .inl ⟨k, n, .inl hup, hn, hname⟩
      · right
        refine ⟨hactive (mem_names.mpr ⟨k, o, ho, ?_⟩), fun hc => hc.2 hnew⟩
        exact (h.kept_ident k o n ho hn hup).trans hname
  · exact .inr ⟨hin, fun hc => hold hc.1⟩

end ChangeLog
