import IngressController.Library.GoString

/-! # Pieces of joined texts

A text falls into pieces at hyphens and underscores. Where hyphens are replaced by underscores, the
pieces are what is left of it; of a text joined with underscores they are the pieces of its parts.
-/

namespace GoString

open List

def isJoint (c : Char) : Bool := c = '-' || c = '_'

/-- What stands between hyphens and underscores. -/
def pieces (s : String) : List (List Char) := s.toList.splitOnP isJoint

theorem splitOn_replaced (cs : List Char) :
    (cs.map fun c => if c = '-' then '_' else c).splitOn '_' = cs.splitOnP isJoint := by
  induction cs with
  | nil => rfl
  | cons c cs ih =>
    rw [map_cons, splitOn_eq_splitOnP, splitOnP_cons_eq_if_modifyHead,
      splitOnP_cons_eq_if_modifyHead, ← splitOn_eq_splitOnP, ih]
    by_cases hdash : c = '-'
    · simp [hdash, isJoint]
    · by_cases hscore : c = '_'
      · simp [hscore, isJoint]
      · simp [hdash, hscore, isJoint]

theorem splitOn_replaceAll (s : String) :
    (replaceAll s '-' '_').toList.splitOn '_' = pieces s := by
  rw [replaceAll, String.toList_ofList]
  exact splitOn_replaced s.toList

theorem splitOn_inj {sep : Char} {s t : String} :
    s.toList.splitOn sep = t.toList.splitOn sep ↔ s = t := by
  constructor
  · intro h
    have hjoined := congrArg (intercalate [sep]) h
    rw [intercalate_splitOn, intercalate_splitOn] at hjoined
    exact String.toList_inj.mp hjoined
  · exact fun h => h ▸ rfl

theorem pieces_join (a b : String) : pieces (a ++ "_" ++ b) = pieces a ++ pieces b := by
  have hlist : (a ++ "_" ++ b).toList = a.toList ++ '_' :: b.toList := by
    simp [String.toList_append]
  rw [pieces, hlist, splitOnP_append_cons _ _ (by decide)]
  rfl

theorem splitOn_join (a b : String) :
    (a ++ "_" ++ b).toList.splitOn '_' = a.toList.splitOn '_' ++ b.toList.splitOn '_' := by
  have hlist : (a ++ "_" ++ b).toList = a.toList ++ '_' :: b.toList := by
    simp [String.toList_append]
  rw [hlist, splitOn_append_cons_self]

/-- Parts with underscores in front of them. -/
def joined (head : String) (parts : List String) : String :=
  parts.foldl (fun acc part => acc ++ "_" ++ part) head

variable (head : String) (parts : List String)

theorem parts_joined {α : Type} {f : String → List α}
    (hf : ∀ a b, f (a ++ "_" ++ b) = f a ++ f b) :
    f (joined head parts) = f head ++ parts.flatMap f := by
  induction parts generalizing head with
  | nil => simp [joined]
  | cons part parts ih =>
    have hstep : joined head (part :: parts) = joined (head ++ "_" ++ part) parts := rfl
    rw [hstep, ih, hf, append_assoc]
    rfl

theorem pieces_joined : pieces (joined head parts) = pieces head ++ parts.flatMap pieces :=
  parts_joined head parts pieces_join

theorem splitOn_joined : (joined head parts).toList.splitOn '_' =
      head.toList.splitOn '_' ++ parts.flatMap fun part => part.toList.splitOn '_' :=
  parts_joined (f := fun part => part.toList.splitOn '_') head parts splitOn_join

theorem intercalate_eq_joined : String.intercalate "_" (head :: parts) = joined head parts := by
  induction parts generalizing head with
  | nil => exact String.intercalate_singleton
  | cons part parts ih =>
    rw [String.intercalate_cons_cons, ← String.intercalate_cons_append, ih]
    rfl

theorem replaceAll_joined :
    joined (replaceAll head '-' '_') (parts.map fun part => replaceAll part '-' '_') =
      replaceAll (joined head parts) '-' '_' := by
  induction parts generalizing head with
  | nil => rfl
  | cons part parts ih =>
    have hscore : replaceAll "_" '-' '_' = "_" := by decide
    have hstep : replaceAll head '-' '_' ++ "_" ++ replaceAll part '-' '_' =
        replaceAll (head ++ "_" ++ part) '-' '_' := by
      rw [replaceAll_append, replaceAll_append, hscore]
    have hih := ih (head ++ "_" ++ part)
    rw [← hstep] at hih
    exact hih

theorem append_joined (front head : String) (parts : List String) :
    joined (front ++ head) parts = front ++ joined head parts := by
  induction parts generalizing head with
  | nil => rfl
  | cons part parts ih =>
    have hih := ih (head ++ "_" ++ part)
    rw [← String.append_assoc, ← String.append_assoc] at hih
    exact hih

end GoString
