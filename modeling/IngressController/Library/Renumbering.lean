import IngressController.Library.Offsets
import Mathlib.Algebra.Order.BigOperators.Group.List
import Mathlib.Algebra.Order.Group.Nat
import Mathlib.Data.List.Sort

/-! # Items numbered twice

Two components number the same items, and one of them leaves out some. The numbers both give to
marked items are the same exactly if no marked item is left out and both take the same space up to
each of them.
-/

namespace Offsets

open List

variable {α β : Type} {step size : α → Nat} {a b : Nat} {xs : List α}

def placeBoth (step size : α → Nat) (a b : Nat) (xs : List α) : List (Nat × Nat × α) :=
  place (fun e => step e.2) a (place size b xs)

theorem snd_placeBoth : (placeBoth step size a b xs).map Prod.snd = place size b xs :=
  map_snd_place _ _ _

theorem fst_placeBoth :
    (placeBoth step size a b xs).map (fun e => (e.1, e.2.2)) = place step a xs := by
  induction xs generalizing a b with
  | nil => rfl
  | cons x xs ih =>
    rw [place_cons, ← ih (a := a + step x) (b := b + size x)]
    rfl

theorem mem_placeBoth {e : Nat × Nat × α} :
    e ∈ placeBoth step size a b xs ↔ ∃ before after, xs = before ++ e.2.2 :: after ∧
      e.1 = a + total step before ∧ e.2.1 = b + total size before := by
  induction xs generalizing a b with
  | nil => simp [placeBoth]
  | cons x xs ih =>
    have hcons : placeBoth step size a b (x :: xs) =
        (a, b, x) :: placeBoth step size (a + step x) (b + size x) xs := rfl
    rw [hcons, mem_cons, ih]
    constructor
    · rintro (rfl | ⟨before, after, rfl, hstep, hsize⟩)
      · exact ⟨[], xs, rfl, rfl, rfl⟩
      · exact ⟨x :: before, after, rfl, by simp [hstep, Nat.add_assoc],
          by simp [hsize, Nat.add_assoc]⟩
    · rintro ⟨before, after, heq, hstep, hsize⟩
      cases before with
      | nil =>
        obtain ⟨rfl, rfl⟩ := cons.inj heq
        exact .inl (Prod.ext hstep (Prod.ext hsize rfl))
      | cons y before =>
        obtain ⟨rfl, rfl⟩ := cons.inj heq
        exact .inr ⟨before, after, rfl, by simp [hstep, Nat.add_assoc],
          by simp [hsize, Nat.add_assoc]⟩

theorem place_congr (h : ∀ x ∈ xs, step x = size x) : place step a xs = place size a xs := by
  induction xs generalizing a with
  | nil => rfl
  | cons x xs ih =>
    rw [place_cons, place_cons, h x mem_cons_self, ih fun y hy => h y (mem_cons_of_mem _ hy)]

theorem total_congr (h : ∀ x ∈ xs, step x = size x) : total step xs = total size xs := by
  rw [total, total, map_congr_left h]

/-- Items that take no space can be left out before or after numbering. -/
theorem place_filter {p : α → Bool} (h : ∀ x, p x = false → size x = 0) :
    place size a (xs.filter p) = (place size a xs).filter fun e => p e.2 := by
  induction xs generalizing a with
  | nil => rfl
  | cons x xs ih =>
    rw [place_cons, filter_cons, filter_cons]
    cases hx : p x with
    | true => simp [ih]
    | false => simp [ih, h x hx]

/-- Items that take space are numbered in increasing order. -/
theorem pairwise_lt_place {p : α → Bool} {start : Nat}
    (h : ∀ x ∈ xs, p x = true → 0 < size x) :
    (((place size start xs).filter fun e => p e.2).map Prod.fst).Pairwise (· < ·) := by
  rw [pairwise_map]
  have hpairs := (@pairwise_place _ size start xs).filter fun e => p e.2
  refine hpairs.imp_of_mem ?_
  intro e e' he _ hle
  obtain ⟨he, hp⟩ := mem_filter.mp he
  have hpos := h e.2 (mem_of_mem_place he) hp
  omega

theorem total_eq_total_iff (h : ∀ x ∈ xs, size x ≤ step x) :
    total step xs = total size xs ↔ ∀ x ∈ xs, step x = size x := by
  induction xs with
  | nil => simp
  | cons x xs ih =>
    have hx := h x mem_cons_self
    have hle : total size xs ≤ total step xs :=
      sum_le_sum fun y hy => h y (mem_cons_of_mem _ hy)
    rw [forall_mem_cons, ← ih fun y hy => h y (mem_cons_of_mem _ hy), total_cons, total_cons]
    omega

section

variable {marked kept : α → Bool} {f : Nat → α → β}

theorem same_numbers_iff (hinj : ∀ i j x y, f i x = f j y → i = j)
    (hstep : ∀ x ∈ xs, marked x = true → 0 < step x)
    (hsize : ∀ x ∈ xs, (marked x && kept x) = true → 0 < size x) :
    (∀ u, u ∈ ((place step a xs).filter fun e => marked e.2).map (fun e => f e.1 e.2) ↔
        u ∈ ((place size b xs).filter fun e => marked e.2 && kept e.2).map fun e => f e.1 e.2) ↔
      ∀ before x after, xs = before ++ x :: after → marked x = true →
        kept x = true ∧ a + total step before = b + total size before := by
  have hboth : (∀ before x after, xs = before ++ x :: after → marked x = true →
      kept x = true ∧ a + total step before = b + total size before) ↔
      ∀ e ∈ placeBoth step size a b xs, marked e.2.2 = true → kept e.2.2 = true ∧ e.1 = e.2.1 := by
    constructor
    · intro h e he hmarked
      obtain ⟨before, after, heq, hi, hj⟩ := mem_placeBoth.mp he
      rw [hi, hj]
      exact h before e.2.2 after heq hmarked
    · intro h before x after heq hmarked
      exact h (a + total step before, b + total size before, x)
        (mem_placeBoth.mpr ⟨before, after, heq, rfl, rfl⟩) hmarked
  have hleft : (place step a xs).filter (fun e => marked e.2) =
      ((placeBoth step size a b xs).filter fun e => marked e.2.2).map fun e => (e.1, e.2.2) := by
    rw [← @fst_placeBoth _ step size a b xs, filter_map]
    rfl
  have hright : (place size b xs).filter (fun e => marked e.2 && kept e.2) =
      ((placeBoth step size a b xs).filter fun e => marked e.2.2 && kept e.2.2).map Prod.snd := by
    rw [← @snd_placeBoth _ step size a b xs, filter_map]
    rfl
  rw [hboth]
  constructor
  · intro hsame
    -- both lists of numbers are increasing, so they are equal
    have hnumbers : ((place step a xs).filter fun e => marked e.2).map Prod.fst =
        ((place size b xs).filter fun e => marked e.2 && kept e.2).map Prod.fst := by
      refine (pairwise_lt_place hstep).eq_of_mem_iff (pairwise_lt_place hsize) ?_
      intro n
      constructor
      · intro hn
        obtain ⟨e, he, rfl⟩ := mem_map.mp hn
        obtain ⟨e', he', heq⟩ := mem_map.mp ((hsame _).mp (mem_map_of_mem he))
        exact mem_map.mpr ⟨e', he', hinj _ _ _ _ heq⟩
      · intro hn
        obtain ⟨e, he, rfl⟩ := mem_map.mp hn
        obtain ⟨e', he', heq⟩ := mem_map.mp ((hsame _).mpr (mem_map_of_mem he))
        exact mem_map.mpr ⟨e', he', hinj _ _ _ _ heq⟩
    rw [hleft, hright, map_map, map_map] at hnumbers
    have hfilter : ((placeBoth step size a b xs).filter fun e => marked e.2.2).filter
        (fun e => kept e.2.2) =
        (placeBoth step size a b xs).filter fun e => marked e.2.2 && kept e.2.2 := by
      rw [filter_filter]
      simp only [Bool.and_comm]
    have hlength := congrArg length hnumbers
    rw [length_map, length_map, ← hfilter] at hlength
    have hkept := length_filter_eq_length_iff.mp hlength.symm
    rw [← hfilter, filter_eq_self.mpr hkept] at hnumbers
    intro e he hmarked
    have hmem : e ∈ (placeBoth step size a b xs).filter fun e => marked e.2.2 :=
      mem_filter.mpr ⟨he, hmarked⟩
    exact ⟨hkept e hmem, map_inj_left.mp hnumbers e hmem⟩
  · intro h u
    have hkept : (placeBoth step size a b xs).filter (fun e => marked e.2.2 && kept e.2.2) =
        (placeBoth step size a b xs).filter fun e => marked e.2.2 := by
      refine filter_congr fun e he => ?_
      cases hmarked : marked e.2.2 with
      | false => rfl
      | true => rw [(h e he hmarked).1, Bool.and_self]
    rw [hleft, hright, hkept, map_map, map_map]
    have heq : ((placeBoth step size a b xs).filter fun e => marked e.2.2).map
        ((fun e => f e.1 e.2) ∘ fun e => (e.1, e.2.2)) =
        ((placeBoth step size a b xs).filter fun e => marked e.2.2).map
          ((fun e => f e.1 e.2) ∘ Prod.snd) := by
      refine map_congr_left fun e he => ?_
      obtain ⟨he, hmarked⟩ := mem_filter.mp he
      dsimp only [Function.comp_apply]
      rw [(h e he hmarked).2]
    rw [heq]

end

end Offsets
