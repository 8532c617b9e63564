import Mathlib.Data.List.Perm.Basic
import Mathlib.Data.List.Forall2
import Mathlib.Tactic.Common

/-! # Pruning a list by marks

Every element has marks. A pass over the list drops the elements that repeat a mark, their own or
one of an earlier element, and remembers the marks of dropped elements as well. When some blocks of
the list may come in any order, the result does not depend on the order only if at most one element
of a block can stay, and the members of the result do not depend on it only if no two elements of a
block compete.
-/

namespace Pruning

open List

variable {α β : Type} [DecidableEq β] (marks : α → List β)

/-- No mark was seen, and none occurs twice. -/
def Fresh (seen : List β) (x : α) : Prop :=
  (marks x).Nodup ∧ ∀ b ∈ marks x, b ∉ seen

instance (seen : List β) (x : α) : Decidable (Fresh marks seen x) :=
  inferInstanceAs (Decidable (_ ∧ _))

def prune (seen : List β) : List α → List α
  | [] => []
  | x :: xs =>
    if Fresh marks seen x then x :: prune (seen ++ marks x) xs else prune (seen ++ marks x) xs

/-- The element has no mark in common with the other elements. -/
def Isolated (xs : List α) (x : α) : Prop :=
  ∀ y ∈ xs, y ≠ x → ∀ b ∈ marks x, b ∉ marks y

variable {marks} {seen seen' : List β} {xs ys : List α} {x y : α}

omit [DecidableEq β] in
theorem Fresh.congr (hseen : ∀ b, b ∈ seen ↔ b ∈ seen') :
    Fresh marks seen x ↔ Fresh marks seen' x := by
  simp only [Fresh, hseen]

omit [DecidableEq β] in
theorem Fresh.of_append {marked : List β} (h : Fresh marks (seen ++ marked) x) :
    Fresh marks seen x :=
  ⟨h.1, fun b hb hin => h.2 b hb (mem_append_left _ hin)⟩

theorem prune_congr (hseen : ∀ b, b ∈ seen ↔ b ∈ seen') :
    prune marks seen xs = prune marks seen' xs := by
  induction xs generalizing seen seen' with
  | nil => rfl
  | cons x xs ih =>
    have hnext : prune marks (seen ++ marks x) xs = prune marks (seen' ++ marks x) xs :=
      ih fun b => by simp [hseen b]
    simp only [prune, hnext, Fresh.congr hseen]

theorem prune_append (seen : List β) (xs ys : List α) :
    prune marks seen (xs ++ ys) =
      prune marks seen xs ++ prune marks (seen ++ xs.flatMap marks) ys := by
  induction xs generalizing seen with
  | nil => simp [prune]
  | cons x xs ih =>
    simp only [cons_append, prune, ih, flatMap_cons, append_assoc]
    split <;> rfl

theorem sublist_prune (seen : List β) (xs : List α) : (prune marks seen xs).Sublist xs := by
  induction xs generalizing seen with
  | nil => exact List.Sublist.slnil
  | cons x xs ih =>
    rw [prune]
    split
    · exact (ih _).cons_cons x
    · exact (ih _).cons x

theorem mem_prune : x ∈ prune marks seen xs ↔
    ∃ before after, xs = before ++ x :: after ∧
      Fresh marks (seen ++ before.flatMap marks) x := by
  induction xs generalizing seen with
  | nil => simp [prune]
  | cons z xs ih =>
    have hcons : x ∈ prune marks seen (z :: xs) ↔
        (x = z ∧ Fresh marks seen z) ∨ x ∈ prune marks (seen ++ marks z) xs := by
      rw [prune]
      split <;> rename_i hfresh <;> simp [hfresh]
    rw [hcons, ih]
    constructor
    · rintro (⟨rfl, hfresh⟩ | ⟨before, after, rfl, hfresh⟩)
      · exact ⟨[], xs, rfl, by simpa using hfresh⟩
      · exact ⟨z :: before, after, rfl, by simpa using hfresh⟩
    rintro ⟨before, after, heq, hfresh⟩
    cases before with
    | nil =>
      cases heq
      exact .inl ⟨rfl, by simpa using hfresh⟩
    | cons z' before =>
      cases heq
      exact .inr ⟨before, after, rfl, by simpa using hfresh⟩

theorem fresh_of_mem_prune (h : x ∈ prune marks seen xs) : Fresh marks seen x := by
  obtain ⟨before, after, -, hfresh⟩ := mem_prune.mp h
  exact hfresh.of_append

theorem nodup_flatMap_prune (seen : List β) (xs : List α) :
    ((prune marks seen xs).flatMap marks).Nodup ∧
      ∀ b ∈ (prune marks seen xs).flatMap marks, b ∉ seen := by
  induction xs generalizing seen with
  | nil => simp [prune]
  | cons x xs ih =>
    obtain ⟨hnodup, hnew⟩ := ih (seen ++ marks x)
    have hnew' : ∀ b ∈ (prune marks (seen ++ marks x) xs).flatMap marks, b ∉ seen :=
      fun b hb hin => hnew b hb (mem_append_left _ hin)
    rw [prune]
    split
    · rename_i hfresh
      rw [flatMap_cons]
      refine ⟨nodup_append.mpr ⟨hfresh.1, hnodup, ?_⟩, fun b hb => ?_⟩
      · rintro b hb b' hb' rfl
        exact hnew b hb' (mem_append_right _ hb)
      · obtain hb | hb := mem_append.mp hb
        · exact hfresh.2 b hb
        · exact hnew' b hb
    · exact ⟨hnodup, hnew'⟩

theorem mem_prune_of_isolated (hnodup : xs.Nodup) (hx : x ∈ xs) (hfresh : Fresh marks seen x)
    (hisolated : Isolated marks xs x) : x ∈ prune marks seen xs := by
  obtain ⟨before, after, rfl⟩ := append_of_mem hx
  refine mem_prune.mpr ⟨before, after, rfl, hfresh.1, fun b hb hin => ?_⟩
  obtain hin | hin := mem_append.mp hin
  · exact hfresh.2 b hb hin
  · obtain ⟨y, hy, hby⟩ := mem_flatMap.mp hin
    have hne : y ≠ x := (nodup_append.mp hnodup).2.2 y hy x mem_cons_self
    exact hisolated y (mem_append_left _ hy) hne b hb hby

theorem notMem_prune_cons (hne : y ≠ x) (hnodup : (y :: ys).Nodup) {b : β} (hx : b ∈ marks x)
    (hy : b ∈ marks y) : x ∉ prune marks seen (y :: ys) := by
  intro hin
  obtain ⟨before, after, heq, hfresh⟩ := mem_prune.mp hin
  cases before with
  | nil =>
    cases heq
    exact hne rfl
  | cons z before =>
    cases heq
    exact hfresh.2 b hx (by simp [hy])

omit [DecidableEq β] in
theorem fresh_flatMap : Fresh marks (xs.flatMap marks) x ↔
    (marks x).Nodup ∧ ∀ y ∈ xs, Disjoint (marks x) (marks y) := by
  simp only [Fresh, mem_flatMap, not_exists, not_and]
  exact and_congr_right fun _ => ⟨fun h y hy b hb => h b hb y hy, fun h b hb y hy => h y hy hb⟩

/-- Every dropped element competes with one that stays exactly if an element that competes with
earlier ones competes with one of them that has no earlier competitor itself. -/
theorem dropped_iff (hnodup : xs.Nodup) (hmarks : ∀ x ∈ xs, (marks x).Nodup) :
    (∀ x ∈ xs, x ∉ prune marks [] xs →
        ∃ y ∈ prune marks [] xs, ¬ Disjoint (marks x) (marks y)) ↔
      ∀ before x after, xs = before ++ x :: after →
        (∃ y ∈ before, ¬ Disjoint (marks x) (marks y)) →
        ∃ front y back, before = front ++ y :: back ∧ ¬ Disjoint (marks x) (marks y) ∧
          ∀ z ∈ front, Disjoint (marks y) (marks z) := by
  constructor
  · rintro h before x after rfl ⟨y, hy, hshare⟩
    have hstale : ¬ Fresh marks (before.flatMap marks) x :=
      fun hfresh => hshare ((fresh_flatMap.mp hfresh).2 y hy)
    have hsplit : prune marks [] (before ++ x :: after) =
        prune marks [] before ++ prune marks (before.flatMap marks ++ marks x) after := by
      rw [prune_append, nil_append, prune, if_neg hstale]
    have hdropped : x ∉ prune marks [] (before ++ x :: after) := by
      rw [hsplit, mem_append, not_or]
      have hx := perm_middle.nodup_iff.mp hnodup
      rw [nodup_cons, mem_append, not_or] at hx
      exact ⟨fun hin => hx.1.1 ((sublist_prune _ _).subset hin),
        fun hin => hx.1.2 ((sublist_prune _ _).subset hin)⟩
    obtain ⟨w, hw, hshare⟩ := h x (by simp) hdropped
    rw [hsplit] at hw
    obtain hw | hw := mem_append.mp hw
    · obtain ⟨front, back, rfl, hfresh⟩ := mem_prune.mp hw
      exact ⟨front, w, back, rfl, hshare, (fresh_flatMap.mp hfresh).2⟩
    · -- what stays after the element has none of its marks
      exact absurd (fun b hb hbw => (fresh_of_mem_prune hw).2 b hbw (mem_append_right _ hb)) hshare
  · intro h x hx hdropped
    obtain ⟨before, after, rfl⟩ := append_of_mem hx
    have hstale : ¬ Fresh marks (before.flatMap marks) x :=
      fun hfresh => hdropped (mem_prune.mpr ⟨before, after, rfl, hfresh⟩)
    rw [fresh_flatMap] at hstale
    simp only [hmarks x hx, true_and, not_forall] at hstale
    obtain ⟨y, hy, hshare⟩ := hstale
    obtain ⟨front, w, back, rfl, hshare, hfirst⟩ := h before x after rfl ⟨y, hy, hshare⟩
    refine ⟨w, mem_prune.mpr ⟨front, back ++ x :: after, by simp, ?_⟩, hshare⟩
    exact fresh_flatMap.mpr ⟨hmarks w (by simp), hfirst⟩

section Block

variable [DecidableEq α]

/-- The members of the result do not depend on the order of a block exactly if no element that
could stay competes with another one. -/
theorem members_perm_iff (hnodup : xs.Nodup) :
    (∀ ys, ys.Perm xs → ∀ x, x ∈ prune marks seen ys ↔ x ∈ prune marks seen xs) ↔
      ∀ x ∈ xs, Fresh marks seen x → Isolated marks xs x := by
  constructor
  · intro h x hx hfresh y hy hne b hb hby
    -- first the element, then its competitor
    have hfirst : x ∈ prune marks seen (x :: xs.erase x) := by
      rw [prune, if_pos hfresh]
      exact mem_cons_self
    have hsecond : x ∉ prune marks seen (y :: xs.erase y) :=
      notMem_prune_cons hne ((perm_cons_erase hy).nodup_iff.mp hnodup) hb hby
    have hkept := (h _ (perm_cons_erase hx).symm x).mp hfirst
    exact hsecond ((h _ (perm_cons_erase hy).symm x).mpr hkept)
  · intro h ys hperm x
    have hmembers : ∀ zs : List α, zs.Perm xs →
        (x ∈ prune marks seen zs ↔ x ∈ xs ∧ Fresh marks seen x) := by
      intro zs hzs
      constructor
      · exact fun hin => ⟨hzs.mem_iff.mp ((sublist_prune seen zs).subset hin),
          fresh_of_mem_prune hin⟩
      · rintro ⟨hx, hfresh⟩
        refine mem_prune_of_isolated (hzs.nodup_iff.mpr hnodup) (hzs.mem_iff.mpr hx) hfresh ?_
        exact fun y hy => h x hx hfresh y (hzs.mem_iff.mp hy)
    rw [hmembers ys hperm, hmembers xs (List.Perm.refl xs)]

/-- The result does not depend on the order of a block exactly if moreover at most one element of
the block could stay. -/
theorem prune_perm_iff (hnodup : xs.Nodup) :
    (∀ ys, ys.Perm xs → prune marks seen ys = prune marks seen xs) ↔
      (∀ x ∈ xs, Fresh marks seen x → Isolated marks xs x) ∧
        ∀ x ∈ xs, ∀ y ∈ xs, Fresh marks seen x → Fresh marks seen y → x = y := by
  constructor
  · intro h
    refine ⟨(members_perm_iff hnodup).mp fun ys hperm x => by rw [h ys hperm], ?_⟩
    intro x hx y hy hfreshx hfreshy
    have hfirst := h _ (perm_cons_erase hx).symm
    have hsecond := h _ (perm_cons_erase hy).symm
    rw [← hsecond, prune, prune, if_pos hfreshx, if_pos hfreshy] at hfirst
    exact (cons.inj hfirst).1
  · rintro ⟨hisolated, hone⟩ ys hperm
    have hmembers : ∀ x, x ∈ prune marks seen ys ↔ x ∈ prune marks seen xs :=
      (members_perm_iff hnodup).mpr hisolated ys hperm
    have hpermPruned : (prune marks seen ys).Perm (prune marks seen xs) :=
      (perm_ext_iff_of_nodup ((sublist_prune seen ys).nodup (hperm.nodup_iff.mpr hnodup))
        ((sublist_prune seen xs).nodup hnodup)).mpr hmembers
    cases hxs : prune marks seen xs with
    | nil =>
      rw [hxs] at hpermPruned
      exact hpermPruned.eq_nil
    | cons x rest =>
      have hsublist : (prune marks seen xs).Sublist xs := sublist_prune seen xs
      have hsub := hsublist.subset
      have hrest : rest = [] := by
        apply eq_nil_iff_forall_not_mem.mpr
        intro y hy
        have hx' : x ∈ prune marks seen xs := hxs ▸ mem_cons_self
        have hy' : y ∈ prune marks seen xs := hxs ▸ mem_cons_of_mem x hy
        have heq := hone x (hsub hx') y (hsub hy') (fresh_of_mem_prune hx') (fresh_of_mem_prune hy')
        have hnodup' := hsublist.nodup hnodup
        rw [hxs] at hnodup'
        exact (nodup_cons.mp hnodup').1 (heq ▸ hy)
      rw [hxs, hrest] at hpermPruned
      rw [hrest]
      exact perm_singleton.mp hpermPruned

end Block

/-- Rearranging one block changes its own part of the result and nothing else. -/
theorem prune_middle {before after : List α} (hperm : ys.Perm xs) :
    prune marks seen (before ++ ys ++ after) =
      prune marks seen before ++ prune marks (seen ++ before.flatMap marks) ys ++
        prune marks (seen ++ (before ++ xs).flatMap marks) after := by
  rw [prune_append, prune_append]
  congr 1
  apply prune_congr
  intro b
  simp [hperm.mem_iff]

/-- Blocks with their places: what stands before a block, and the block. -/
def AtBlocks (P : List α → List α → Prop) (blocks : List (List α)) : Prop :=
  ∀ before block after, blocks = before ++ block :: after → P before.flatten block

theorem atBlocks_nil (P : List α → List α → Prop) : AtBlocks P [] := by
  intro before block after h
  cases before <;> cases h

theorem atBlocks_cons {P : List α → List α → Prop} {block : List α} {blocks : List (List α)} :
    AtBlocks P (block :: blocks) ↔
      P [] block ∧ AtBlocks (fun before => P (block ++ before)) blocks := by
  constructor
  · intro h
    exact ⟨h [] block blocks rfl, fun before b after heq => h (block :: before) b after (heq ▸ rfl)⟩
  · rintro ⟨hfirst, hrest⟩ before b after heq
    cases before with
    | nil =>
      cases heq
      exact hfirst
    | cons b' before =>
      cases heq
      exact hrest before b after rfl

/-- Two arrangements are related if all their blocks are, by a relation that appending keeps. -/
theorem prune_arranged {R : List α → List α → Prop} (hrefl : ∀ l, R l l)
    (happend : ∀ {a b c d}, R a b → R c d → R (a ++ c) (b ++ d)) {arranged blocks : List (List α)}
    (harranged : Forall₂ Perm arranged blocks)
    (h : AtBlocks (fun before block => ∀ ys, ys.Perm block →
      R (prune marks (seen ++ before.flatMap marks) ys)
        (prune marks (seen ++ before.flatMap marks) block)) blocks) :
    R (prune marks seen arranged.flatten) (prune marks seen blocks.flatten) := by
  induction harranged generalizing seen with
  | nil => exact hrefl _
  | @cons ys block arranged blocks hperm _ ih =>
    have hhead : R (prune marks seen ys) (prune marks seen block) := by
      simpa using h [] block blocks rfl ys hperm
    have htail : R (prune marks (seen ++ block.flatMap marks) arranged.flatten)
        (prune marks (seen ++ block.flatMap marks) blocks.flatten) := by
      refine ih fun before block' after heq zs hzs => ?_
      have hnext := h (block :: before) block' after (by rw [heq]; rfl) zs hzs
      simpa [flatMap_append] using hnext
    have hseen : prune marks (seen ++ ys.flatMap marks) arranged.flatten =
        prune marks (seen ++ block.flatMap marks) arranged.flatten := by
      apply prune_congr
      intro b
      simp [hperm.mem_iff]
    rw [flatten_cons, flatten_cons, prune_append, prune_append, hseen]
    exact happend hhead htail

end Pruning
