import IngressController.Library.GoString

/-! # Texts with numbers

Names that are made of fixed words and numbers. If the words have no digits and none is empty, a
text determines its words and numbers.
-/

open GoString

/-- Words, each followed by a number, and a last word. -/
structure NumberedText where
  parts : List (String × Nat)
  last : String := ""

namespace NumberedText

open List

def renderParts (last : List Char) : List (String × Nat) → List Char
  | [] => last
  | (word, n) :: parts => word.toList ++ (ofNat n ++ renderParts last parts)

def render (t : NumberedText) : List Char := renderParts t.last.toList t.parts

/-- A word without digits. -/
def isWord (s : String) : Bool := s.toList.all fun c => !isDigit c

/-- A word that keeps two numbers apart. -/
def isSeparator (s : String) : Bool := isWord s && s ≠ ""

/-- The words keep the numbers apart. -/
def isSeparated (t : NumberedText) : Bool :=
  (t.parts.map Prod.fst).all isSeparator && isWord t.last

section

variable {last last' : String} {parts parts' : List (String × Nat)} {word : String}

theorem takeWhile_word (hword : isWord word = true) (n : Nat) (cs : List Char) :
    (word.toList ++ (ofNat n ++ cs)).takeWhile (fun c => !isDigit c) = word.toList := by
  refine (span_append (all_eq_true.mp hword) ?_).1
  cases hn : ofNat n with
  | nil => exact absurd hn (ofNat_ne_nil n)
  | cons d ds =>
    have hd : isDigit d = true := isDigit_of_mem_ofNat (by rw [hn]; exact mem_cons_self)
    simp [hd]

theorem endsNumber_of_isWord {cs rest : List Char} (h : cs.all (fun c => !isDigit c) = true)
    (hne : cs ≠ []) : EndsNumber (cs ++ rest) := by
  cases cs with
  | nil => exact absurd rfl hne
  | cons c cs =>
    have hc := all_eq_true.mp h c mem_cons_self
    simpa [EndsNumber] using hc

theorem endsNumber_renderParts
    (hparts : (parts.map Prod.fst).all isSeparator = true)
    (hlast : isWord last = true) : EndsNumber (renderParts last.toList parts) := by
  cases parts with
  | nil =>
    cases hcs : last.toList with
    | nil => simp [renderParts, EndsNumber]
    | cons c cs =>
      have h : EndsNumber (last.toList ++ []) := endsNumber_of_isWord hlast (by simp [hcs])
      simpa [renderParts, hcs] using h
  | cons part parts =>
    obtain ⟨word, n⟩ := part
    have hword := all_eq_true.mp hparts word mem_cons_self
    simp only [isSeparator, Bool.and_eq_true, decide_eq_true_eq] at hword
    exact endsNumber_of_isWord hword.1 (by simpa using hword.2)

theorem word_ne_numbered (hlast : isWord last = true) (word : List Char) (n : Nat)
    (cs : List Char) : last.toList ≠ word ++ (ofNat n ++ cs) := by
  intro h
  cases hn : ofNat n with
  | nil => exact ofNat_ne_nil n hn
  | cons d ds =>
    have hd : isDigit d = true := isDigit_of_mem_ofNat (by rw [hn]; exact mem_cons_self)
    have hin : d ∈ last.toList := by simp [h, hn]
    have hnot := all_eq_true.mp hlast d hin
    simp [hd] at hnot

theorem renderParts_inj (hlast : isWord last = true) (hlast' : isWord last' = true)
    (hparts : (parts.map Prod.fst).all isSeparator = true)
    (hparts' : (parts'.map Prod.fst).all isSeparator = true)
    (h : renderParts last.toList parts = renderParts last'.toList parts') :
    parts = parts' ∧ last = last' := by
  induction parts generalizing parts' with
  | nil =>
    cases parts' with
    | nil => exact ⟨rfl, String.toList_inj.mp h⟩
    | cons part parts' => exact absurd h (word_ne_numbered hlast _ _ _)
  | cons part parts ih =>
    obtain ⟨word, n⟩ := part
    cases parts' with
    | nil => exact absurd h.symm (word_ne_numbered hlast' _ _ _)
    | cons part' parts' =>
      obtain ⟨word', n'⟩ := part'
      simp only [map_cons, all_cons, Bool.and_eq_true] at hparts hparts'
      have hword := (Bool.and_eq_true_iff.mp hparts.1).1
      have hword' := (Bool.and_eq_true_iff.mp hparts'.1).1
      have htake := congrArg (takeWhile fun c => !isDigit c) h
      rw [renderParts, renderParts, takeWhile_word hword, takeWhile_word hword'] at htake
      obtain rfl := String.toList_inj.mp htake
      obtain ⟨rfl, hrest⟩ := ofNat_append_inj
        (endsNumber_renderParts hparts.2 hlast) (endsNumber_renderParts hparts'.2 hlast')
        (append_cancel_left h)
      obtain ⟨rfl, rfl⟩ := ih hparts.2 hparts'.2 hrest
      exact ⟨rfl, rfl⟩

end

theorem render_inj {t t' : NumberedText} (ht : t.isSeparated = true) (ht' : t'.isSeparated = true)
    (h : t.render = t'.render) : t = t' := by
  unfold isSeparated at ht ht'
  rw [Bool.and_eq_true] at ht ht'
  obtain ⟨hparts, hlast⟩ := renderParts_inj ht.2 ht'.2 ht.1 ht'.1 h
  cases t
  cases t'
  rw [NumberedText.mk.injEq]
  exact ⟨hparts, hlast⟩

/-- A character other than a digit stands in a word. -/
def hasWordWith (c : Char) (t : NumberedText) : Bool :=
  (t.last :: t.parts.map Prod.fst).any (·.toList.contains c)

theorem hasWordWith_of_mem_render {t : NumberedText} {c : Char} (h : c ∈ t.render)
    (hc : isDigit c = false) : t.hasWordWith c = true := by
  obtain ⟨parts, last⟩ := t
  unfold render at h
  dsimp only at h
  induction parts with
  | nil => simpa [hasWordWith, renderParts] using h
  | cons part parts ih =>
    obtain ⟨word, n⟩ := part
    rw [renderParts, mem_append, mem_append] at h
    rcases h with h | h | h
    · simp [hasWordWith, h]
    · rw [isDigit_of_mem_ofNat h] at hc
      cases hc
    · have hrest := ih h
      simp only [hasWordWith, any_cons, Bool.or_eq_true, map_cons] at hrest ⊢
      exact hrest.imp_right .inr

end NumberedText
