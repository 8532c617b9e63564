import Mathlib.Data.List.Basic
import Mathlib.Data.List.Dedup

/-! # Lists of field errors

A validator of a structured object returns the errors it found, each with the path of its
field. Checks are concatenated, and an object is accepted if no check found anything. Loops
that also look for repeated keys share one shape, `distinctBy`.
-/

namespace FieldErrors

open List

inductive ErrorType where
  | required
  | invalid
  | duplicate
  | forbidden
  | notFound
  | tooMany

def ErrorType.text : ErrorType → String
  | required => "Required value"
  | invalid => "Invalid value"
  | duplicate => "Duplicate value"
  | forbidden => "Forbidden"
  | notFound => "Not found"
  | tooMany => "Too many"

inductive BadValue where
  | text (s : String)
  | number (n : Int)
  | none

def BadValue.render : BadValue → String
  | text s => "\"" ++ s ++ "\""
  | number n => toString n
  | none => "null"

structure FieldError where
  type : ErrorType
  field : String
  badValue : BadValue
  detail : String

abbrev ErrorList := List FieldError

def child (path name : String) : String := path ++ "." ++ name

variable (path : String)

def index (i : Nat) : String := path ++ "[" ++ toString i ++ "]"

def key (path k : String) : String := path ++ "[" ++ k ++ "]"

def required (path detail : String) : FieldError := ⟨.required, path, .text "", detail⟩

def invalid (path value detail : String) : FieldError := ⟨.invalid, path, .text value, detail⟩

def invalidNumber (value : Int) (detail : String) : FieldError :=
  ⟨.invalid, path, .number value, detail⟩

def duplicate (path value : String) : FieldError := ⟨.duplicate, path, .text value, ""⟩

def forbidden (path detail : String) : FieldError := ⟨.forbidden, path, .text "", detail⟩

def notFound (path value : String) : FieldError := ⟨.notFound, path, .text value, ""⟩

def tooMany (actual maxQuantity : Nat) : FieldError :=
  ⟨.tooMany, path, .number actual, "must have at most " ++ toString maxQuantity ++
    (if maxQuantity = 1 then " item" else " items")⟩

def FieldError.body (e : FieldError) : String :=
  let head := match e.type with
    | .required | .forbidden => e.type.text
    | _ => e.type.text ++ ": " ++ e.badValue.render
  if e.detail = "" then head else head ++ ": " ++ e.detail

def FieldError.message (e : FieldError) : String := e.field ++ ": " ++ e.body

/-- One error for the whole list; nothing for an empty list. -/
def toAggregate (errs : ErrorList) : Option String :=
  match (errs.map FieldError.message).dedup with
  | [] => none
  | [message] => some message
  | messages => some ("[" ++ String.intercalate ", " messages ++ "]")

theorem toAggregate_eq_none {errs : ErrorList} : toAggregate errs = none ↔ errs = [] := by
  unfold toAggregate
  constructor
  · intro h
    split at h
    · rename_i hnil
      exact map_eq_nil_iff.mp ((dedup_eq_nil _).mp hnil)
    · cases h
    · cases h
  · intro h
    subst h
    rfl

section Loops

variable {α κ : Type} [DecidableEq κ]

def each (check : Nat → α → ErrorList) (l : List α) : ErrorList :=
  l.zipIdx.flatMap fun (a, i) => check i a

variable {l : List α}

theorem each_eq_nil {check : Nat → α → ErrorList} :
    each check l = [] ↔ ∀ i a, l[i]? = some a → check i a = [] := by
  simp only [each, flatMap_eq_nil_iff, Prod.forall, mk_mem_zipIdx_iff_getElem?]
  exact ⟨fun h i a => h a i, fun h a i => h i a⟩

/-- Checks that do not depend on the index. -/
theorem each_eq_nil_of_forall {check : Nat → α → ErrorList}
    (h : each check l = []) {a : α} (ha : a ∈ l) : ∃ i, check i a = [] := by
  obtain ⟨i, hi⟩ := getElem?_of_mem ha
  exact ⟨i, each_eq_nil.mp h i a hi⟩

/-- Elements with distinct keys. An element whose key check fails reports that and its key is
forgotten; one with a key seen before is a duplicate. Further checks are made in any case. -/
def distinctFrom (keyOf : α → κ) (keyCheck : Nat → α → ErrorList)
    (duplicateError : Nat → α → FieldError) (others : Nat → α → ErrorList) :
    List κ → Nat → List α → ErrorList × List κ
  | seen, _, [] => ([], seen)
  | seen, i, a :: rest =>
    let keyErrs := keyCheck i a
    let (errs, seen) :=
      if keyErrs ≠ [] then (keyErrs, seen)
      else if keyOf a ∈ seen then ([duplicateError i a], seen)
      else ([], keyOf a :: seen)
    let (restErrs, seen) :=
      distinctFrom keyOf keyCheck duplicateError others seen (i + 1) rest
    (errs ++ others i a ++ restErrs, seen)

variable {keyOf : α → κ} {keyCheck others : Nat → α → ErrorList}
  {duplicateError : Nat → α → FieldError}

theorem distinctFrom_eq_nil {seen : List κ} {n : Nat} :
    (distinctFrom keyOf keyCheck duplicateError others seen n l).1 = [] ↔
      (∀ i a, l[i]? = some a → keyCheck (n + i) a = [] ∧ others (n + i) a = []) ∧
        (l.map keyOf).Nodup ∧ ∀ a ∈ l, keyOf a ∉ seen := by
  induction l generalizing seen n with
  | nil => simp [distinctFrom]
  | cons a rest ih =>
    have hshift : (∀ i b, (a :: rest)[i]? = some b →
          keyCheck (n + i) b = [] ∧ others (n + i) b = []) ↔
        (keyCheck n a = [] ∧ others n a = []) ∧
          ∀ i b, rest[i]? = some b → keyCheck (n + 1 + i) b = [] ∧ others (n + 1 + i) b = [] := by
      constructor
      · intro h
        refine ⟨h 0 a rfl, fun i b hb => ?_⟩
        have := h (i + 1) b hb
        rwa [Nat.add_right_comm n 1 i]
      · rintro ⟨h0, h⟩ i b hb
        cases i with
        | zero =>
          cases hb
          exact h0
        | succ i =>
          have := h i b hb
          rwa [Nat.add_right_comm n 1 i] at this
    rw [hshift]
    simp only [distinctFrom]
    by_cases hkey : keyCheck n a = []
    · by_cases hseen : keyOf a ∈ seen
      · simp [hkey, hseen]
      simp only [hkey, ne_eq, not_true, if_false, hseen, nil_append,
        append_eq_nil_iff, ih, true_and, map_cons, nodup_cons, mem_map,
        mem_cons, not_or, forall_eq_or_imp, not_false_iff]
      constructor
      · rintro ⟨hothers, hrest, hnodup, hfresh⟩
        refine ⟨⟨hothers, hrest⟩, ⟨?_, hnodup⟩, fun b hb => (hfresh b hb).2⟩
        rintro ⟨b, hb, heq⟩
        exact (hfresh b hb).1 heq
      · rintro ⟨⟨hothers, hrest⟩, ⟨hnot, hnodup⟩, hfresh⟩
        exact ⟨hothers, hrest, hnodup, fun b hb => ⟨fun heq => hnot ⟨b, hb, heq⟩, hfresh b hb⟩⟩
    · simp [hkey]

def distinctBy (keyOf : α → κ) (keyCheck : Nat → α → ErrorList)
    (duplicateError : Nat → α → FieldError) (others : Nat → α → ErrorList) (l : List α) :
    ErrorList × List κ :=
  distinctFrom keyOf keyCheck duplicateError others [] 0 l

theorem distinctBy_eq_nil :
    (distinctBy keyOf keyCheck duplicateError others l).1 = [] ↔
      (∀ i a, l[i]? = some a → keyCheck i a = [] ∧ others i a = []) ∧ (l.map keyOf).Nodup := by
  simp [distinctBy, distinctFrom_eq_nil]

/-- The keys seen depend on the keys and their checks alone. -/
theorem seen_distinctFrom_map {f : α → α} (hkey : ∀ a, keyOf (f a) = keyOf a)
    (hcheck : ∀ i a, keyCheck i (f a) = keyCheck i a) {seen : List κ} {n : Nat} :
    (distinctFrom keyOf keyCheck duplicateError others seen n (l.map f)).2 =
      (distinctFrom keyOf keyCheck duplicateError others seen n l).2 := by
  induction l generalizing seen n with
  | nil => rfl
  | cons a rest ih =>
    simp only [map_cons, distinctFrom, hkey, hcheck, ih]
    split
    · rfl
    · split <;> rfl

theorem seen_distinctBy_map {f : α → α} (hkey : ∀ a, keyOf (f a) = keyOf a)
    (hcheck : ∀ i a, keyCheck i (f a) = keyCheck i a) :
    (distinctBy keyOf keyCheck duplicateError others (l.map f)).2 =
      (distinctBy keyOf keyCheck duplicateError others l).2 :=
  seen_distinctFrom_map hkey hcheck

end Loops

end FieldErrors
