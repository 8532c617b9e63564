import Mathlib.Data.List.Basic
import Mathlib.Data.List.Nodup
import Mathlib.Algebra.BigOperators.Group.List.Basic
import Mathlib.Algebra.GroupWithZero.Nat

/-! # Items placed one after the other

A generator numbers its items by the length of what it has produced so far, so every
item starts where the item before it ends. Items of different places never share a
number.
-/

namespace Offsets

variable {α β : Type} (size : α → Nat)

def place : Nat → List α → List (Nat × α)
  | _, [] => []
  | start, x :: xs => (start, x) :: place (start + size x) xs

def total (xs : List α) : Nat := (xs.map size).sum

variable (start : Nat)

@[simp] theorem place_nil : place size start [] = [] := rfl

@[simp] theorem place_cons (x : α) (xs : List α) :
    place size start (x :: xs) = (start, x) :: place size (start + size x) xs := rfl

@[simp] theorem total_nil : total size [] = 0 := rfl

@[simp] theorem total_cons (x : α) (xs : List α) :
    total size (x :: xs) = size x + total size xs := by
  simp [total]

@[simp] theorem total_append (xs ys : List α) :
    total size (xs ++ ys) = total size xs + total size ys := by
  simp [total]

theorem total_flatMap (parts : β → List α) (ys : List β) :
    total size (ys.flatMap parts) = total (fun y => total size (parts y)) ys := by
  induction ys with
  | nil => rfl
  | cons y ys ih => rw [List.flatMap_cons, total_append, ih, total_cons]

theorem place_append (xs ys : List α) :
    place size start (xs ++ ys) = place size start xs ++ place size (start + total size xs) ys := by
  induction xs generalizing start with
  | nil => simp
  | cons x xs ih => simp [ih, Nat.add_assoc]

variable (xs : List α)

theorem place_concat (x : α) :
    place size start (xs ++ [x]) = place size start xs ++ [(start + total size xs, x)] := by
  simp [place_append]

@[simp] theorem length_place : (place size start xs).length = xs.length := by
  induction xs generalizing start with
  | nil => rfl
  | cons x xs ih => simp [ih]

/-- Placed items take the space they take unplaced. -/
@[simp] theorem total_place (f : α → Nat) (start : Nat) (xs : List α) :
    total (fun e => f e.2) (place size start xs) = total f xs := by
  induction xs generalizing start with
  | nil => rfl
  | cons x xs ih => simp [ih]

@[simp] theorem map_snd_place : (place size start xs).map Prod.snd = xs := by
  induction xs generalizing start with
  | nil => rfl
  | cons x xs ih => simp [ih]

theorem place_map (f : β → α) (start : Nat) (ys : List β) :
    place size start (ys.map f) =
      (place (fun y => size (f y)) start ys).map fun e => (e.1, f e.2) := by
  induction ys generalizing start with
  | nil => rfl
  | cons y ys ih => simp [ih]

/-- Items that consist of smaller ones place these as if they were listed directly. -/
theorem flatMap_place (parts : β → List α) (start : Nat) (ys : List β) :
    (place (fun y => total size (parts y)) start ys).flatMap (fun e => place size e.1 (parts e.2)) =
      place size start (ys.flatMap parts) := by
  induction ys generalizing start with
  | nil => rfl
  | cons y ys ih => simp [ih, place_append]

variable {size} {start : Nat} {xs : List α}

theorem mem_of_mem_place {e : Nat × α} (h : e ∈ place size start xs) : e.2 ∈ xs := by
  induction xs generalizing start with
  | nil => cases h
  | cons x xs ih =>
    obtain rfl | h := List.mem_cons.mp h
    · exact List.mem_cons_self
    · exact List.mem_cons_of_mem _ (ih h)

theorem start_le_of_mem_place {e : Nat × α} (h : e ∈ place size start xs) : start ≤ e.1 := by
  induction xs generalizing start with
  | nil => cases h
  | cons x xs ih =>
    obtain rfl | h := List.mem_cons.mp h
    · exact Nat.le_refl _
    · exact Nat.le_trans (Nat.le_add_right _ _) (ih h)

theorem pairwise_place : (place size start xs).Pairwise fun e e' => e.1 + size e.2 ≤ e'.1 := by
  induction xs generalizing start with
  | nil => exact List.Pairwise.nil
  | cons x xs ih => exact List.Pairwise.cons (fun e he => start_le_of_mem_place he) ih

/-- What is made of the items has no duplicates if every result tells its place. -/
theorem nodup_flatMap_place {f : Nat × α → List β} (hnodup : ∀ e, (f e).Nodup)
    (hsize : ∀ {e v}, v ∈ f e → 0 < size e.2)
    (hplace : ∀ {e e' v}, v ∈ f e → v ∈ f e' → e.1 = e'.1) :
    ((place size start xs).flatMap f).Nodup := by
  rw [List.nodup_flatMap]
  refine ⟨fun e _ => hnodup e, pairwise_place.imp fun hle v hv hv' => ?_⟩
  have hpos := hsize hv
  have hsame := hplace hv hv'
  omega

end Offsets
