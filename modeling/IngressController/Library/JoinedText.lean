import Mathlib.Data.List.Basic

/-! # Joined texts

Two texts with a separator between them do not determine their parts: the first part may go on
behind the separator. That is the only way in which two joins agree.
-/

namespace JoinedText

open String

/-- The parts are the same, or the first part of one join goes on with a piece of the other. -/
def SameJoin (separator a b a' b' : String) : Prop :=
  a = a' ∧ b = b' ∨
    ∃ piece, a' = a ++ separator ++ piece ∧ b = piece ++ separator ++ b' ∨
      a = a' ++ separator ++ piece ∧ b' = piece ++ separator ++ b

variable {c : Char} {as bs as' bs' : List Char} {a b a' b' : String}

theorem cons_eq_append_cons_iff {xs : List Char} :
    c :: bs = xs ++ c :: bs' ↔ xs = [] ∧ bs = bs' ∨ ∃ ys, xs = c :: ys ∧ bs = ys ++ c :: bs' := by
  cases xs with
  | nil => simp
  | cons x xs =>
    constructor
    · intro h
      obtain ⟨hx, htail⟩ := List.cons.inj h
      exact .inr ⟨xs, by rw [hx], htail⟩
    · rintro (⟨h, -⟩ | ⟨ys, h, htail⟩)
      · cases h
      · rw [h, htail]
        rfl

theorem append_cons_eq_iff :
    as ++ c :: bs = as' ++ c :: bs' ↔
      as = as' ∧ bs = bs' ∨
        ∃ xs, as' = as ++ c :: xs ∧ bs = xs ++ c :: bs' ∨
          as = as' ++ c :: xs ∧ bs' = xs ++ c :: bs := by
  rw [List.append_eq_append_iff]
  constructor
  · rintro (⟨xs, rfl, h⟩ | ⟨xs, rfl, h⟩)
    · rcases cons_eq_append_cons_iff.mp h with ⟨rfl, htail⟩ | ⟨ys, rfl, htail⟩
      · exact .inl ⟨by simp, htail⟩
      · exact .inr ⟨ys, .inl ⟨rfl, htail⟩⟩
    · rcases cons_eq_append_cons_iff.mp h with ⟨rfl, htail⟩ | ⟨ys, rfl, htail⟩
      · exact .inl ⟨by simp, htail.symm⟩
      · exact .inr ⟨ys, .inr ⟨rfl, htail⟩⟩
  · rintro (⟨rfl, rfl⟩ | ⟨xs, ⟨rfl, rfl⟩ | ⟨rfl, rfl⟩⟩)
    · exact .inl ⟨[], by simp⟩
    · exact .inl ⟨c :: xs, by simp⟩
    · exact .inr ⟨c :: xs, by simp⟩

/-- The texts for which joins with a one-character separator agree. -/
theorem join_eq_iff (c : Char) :
    a ++ singleton c ++ b = a' ++ singleton c ++ b' ↔
      SameJoin (singleton c) a b a' b' := by
  have hlists : a.toList ++ c :: b.toList = a'.toList ++ c :: b'.toList ↔ _ := append_cons_eq_iff
  have hjoin : ∀ x y z : String, x = y ++ singleton c ++ z ↔
      x.toList = y.toList ++ c :: z.toList := by
    intro x y z
    rw [← toList_inj]
    simp [toList_append]
  rw [hjoin]
  simp only [toList_append, toList_singleton, List.append_assoc,
    List.singleton_append]
  rw [hlists]
  unfold SameJoin
  rw [toList_inj, toList_inj]
  refine or_congr Iff.rfl ⟨?_, ?_⟩
  · rintro ⟨xs, h⟩
    refine ⟨ofList xs, ?_⟩
    rw [hjoin, hjoin, hjoin, hjoin]
    simpa using h
  · rintro ⟨piece, h⟩
    refine ⟨piece.toList, ?_⟩
    rwa [hjoin, hjoin, hjoin, hjoin] at h

theorem join_inj {separator : String} (hsep : separator.toList = [c]) (ha : c ∉ a.toList)
    (ha' : c ∉ a'.toList) : a ++ separator ++ b = a' ++ separator ++ b' ↔ a = a' ∧ b = b' := by
  have hsingle : separator = singleton c := by
    rw [← toList_inj, hsep]
    simp
  rw [hsingle, join_eq_iff]
  constructor
  · rintro (h | ⟨piece, ⟨h, -⟩ | ⟨h, -⟩⟩)
    · exact h
    · exact absurd (by rw [h]; simp [toList_append]) ha'
    · exact absurd (by rw [h]; simp [toList_append]) ha
  · exact .inl

end JoinedText
