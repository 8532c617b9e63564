import Mathlib.Data.List.Basic
import Mathlib.Data.List.DropRight
import Mathlib.Data.List.TakeWhile
import Mathlib.Data.String.Basic

/-! # Go string functions

The functions of `strings` and `strconv` the controller calls, over the characters
of a string. Lower-casing maps the characters whose lower case is ASCII and leaves
the others alone: its results are only compared with ASCII texts.
-/

namespace GoString

open List

/-- Unicode white space. -/
def isSpace (c : Char) : Bool :=
  let n := c.toNat
  (0x09 ≤ n && n ≤ 0x0D) || n = 0x20 || n = 0x85 || n = 0xA0 || n = 0x1680 ||
    (0x2000 ≤ n && n ≤ 0x200A) || n = 0x2028 || n = 0x2029 || n = 0x202F || n = 0x205F ||
    n = 0x3000

variable (cs : List Char)

def trimSpace : List Char :=
  ((cs.dropWhile isSpace).reverse.dropWhile isSpace).reverse

/-- The dotted capital I and the Kelvin sign have ASCII lower cases. -/
def lowerChar (c : Char) : Char :=
  if 'A' ≤ c && c ≤ 'Z' then Char.ofNat (c.toNat + 32)
  else if c.toNat = 0x130 then 'i'
  else if c.toNat = 0x212A then 'k'
  else c

def toLower : List Char := cs.map lowerChar

/-- The words of a string, with the word being read as an accumulator. -/
def fieldsFrom : List Char → List Char → List (List Char)
  | word, [] => if word = [] then [] else [word]
  | word, c :: rest =>
    if isSpace c then (if word = [] then [] else [word]) ++ fieldsFrom [] rest
    else fieldsFrom (word ++ [c]) rest

def fields : List (List Char) := fieldsFrom [] cs

variable (s p : String)

def hasPrefix : Bool := p.toList.isPrefixOf s.toList

/-- `s` without its head `p`, or `s` itself when it has no such head. -/
def trimPrefix : List Char :=
  if hasPrefix s p then s.toList.drop p.toList.length else s.toList

/-- What follows a modifier and the white space after it. -/
def locationOf (path modifier : String) : String :=
  String.ofList ((trimPrefix path modifier).dropWhile isSpace)

def hasSuffix : Bool := p.toList.isSuffixOf s.toList

/-- `strings.TrimSuffix` -/
def trimSuffix (s suffix : String) : String :=
  if hasSuffix s suffix then String.ofList (s.toList.take (s.toList.length - suffix.toList.length))
  else s

/-- `strings.TrimRight` -/
def trimRight (cutset : String) : List Char :=
  (cs.reverse.dropWhile cutset.toList.contains).reverse

variable (s : String)

def contains (c : Char) : Bool := s.toList.contains c

/-- `strings.Contains`. -/
def containsText (s sub : String) : Bool := s.toList.tails.any sub.toList.isPrefixOf

def containsAny (s chars : String) : Bool := s.toList.any chars.toList.contains

/-- `strings.Split` at a one-character separator. -/
def split (sep : Char) : List String :=
  (s.toList.splitOn sep).map String.ofList

/-- `strings.SplitN`: at most `n + 1` pieces. -/
def splitAtMost (sep : Char) : Nat → List Char → List (List Char)
  | 0, cs => [cs]
  | n + 1, cs =>
    match cs.dropWhile (· ≠ sep) with
    | [] => [cs]
    | _ :: rest => cs.takeWhile (· ≠ sep) :: splitAtMost sep n rest

theorem splitAtMost_ne_nil (sep : Char) (n : Nat) (cs : List Char) :
    splitAtMost sep n cs ≠ [] := by
  cases n with
  | zero => simp [splitAtMost]
  | succ n =>
    rw [splitAtMost]
    split <;> simp

/-- `strings.ReplaceAll` of one character by another. -/
def replaceAll (old new : Char) : String :=
  String.ofList (s.toList.map fun c => if c = old then new else c)

theorem replaceAll_append (s t : String) (old new : Char) :
    replaceAll (s ++ t) old new = replaceAll s old new ++ replaceAll t old new := by
  simp [replaceAll, String.toList_append]

variable {c : Char}

theorem not_mem_replaceAll {d : Char} (h : d ≠ c) (s : String) :
    c ∉ (replaceAll s c d).toList := by
  simp only [replaceAll, String.toList_ofList, mem_map, not_exists, not_and]
  intro x _
  split
  · exact h
  · rename_i hx
    exact hx

theorem replaceAll_of_not_mem {d : Char} {s : String} (h : c ∉ s.toList) :
    replaceAll s c d = s := by
  have hmap : (s.toList.map fun x => if x = c then d else x) = s.toList.map id :=
    map_congr_left fun x hx => if_neg fun heq : x = c => h (heq ▸ hx)
  rw [replaceAll, hmap, map_id, String.ofList_toList]

def isDigit (c : Char) : Bool := '0' ≤ c && c ≤ '9'

def digitValue (c : Char) : Nat := c.toNat - '0'.toNat

variable (cs : List Char)

def decimalValue : Nat :=
  cs.foldl (fun n c => 10 * n + digitValue c) 0

/-- `strconv.ParseUint(s, 10, 64)`; `none` is an error. -/
def parseUint : Option Nat :=
  if cs ≠ [] ∧ cs.all isDigit ∧ decimalValue cs < 2 ^ 64 then some (decimalValue cs) else none

/-- `strconv.ParseInt(s, 10, 64)`; a sign may stand in front. -/
def parseInt : Option Int :=
  let (negative, digits) := match cs with
    | '-' :: rest => (true, rest)
    | '+' :: rest => (false, rest)
    | rest => (false, rest)
  if digits = [] ∨ ¬ digits.all isDigit then none
  else if negative then
    if decimalValue digits ≤ 2 ^ 63 then some (-decimalValue digits) else none
  else if decimalValue digits < 2 ^ 63 then some (decimalValue digits) else none

/-- `strconv.ParseBool`; `none` is an error. -/
def parseBool (s : String) : Option Bool :=
  if s ∈ ["1", "t", "T", "TRUE", "true", "True"] then some true
  else if s ∈ ["0", "f", "F", "FALSE", "false", "False"] then some false
  else none

/-- The digit of the URL alphabet for a six-bit number. -/
def base64Digit (n : Nat) : Char :=
  if n < 26 then Char.ofNat ('A'.toNat + n)
  else if n < 52 then Char.ofNat ('a'.toNat + (n - 26))
  else if n < 62 then Char.ofNat ('0'.toNat + (n - 52))
  else if n = 62 then '-'
  else '_'

/-- Three bytes give four digits; without padding, one or two bytes at the end give one more
digit than bytes. -/
def base64Digits : List UInt8 → List Char
  | [] => []
  | [a] => [base64Digit (a.toNat / 4), base64Digit (a.toNat % 4 * 16)]
  | [a, b] =>
    [base64Digit (a.toNat / 4), base64Digit (a.toNat % 4 * 16 + b.toNat / 16),
      base64Digit (b.toNat % 16 * 4)]
  | a :: b :: c :: rest =>
    base64Digit (a.toNat / 4) :: base64Digit (a.toNat % 4 * 16 + b.toNat / 16) ::
      base64Digit (b.toNat % 16 * 4 + c.toNat / 64) :: base64Digit (c.toNat % 64) ::
        base64Digits rest

/-- `base64.URLEncoding.WithPadding(base64.NoPadding).EncodeToString`. -/
def base64URLEncode (s : String) : String :=
  String.ofList (base64Digits (s.toList.flatMap String.utf8EncodeChar))

example : base64URLEncode "/tea?" = "L3RlYT8" := by decide +kernel

/-- `strings.EqualFold` with an ASCII text: the long s and the Kelvin sign fold to ASCII. -/
def equalFold (cs text : List Char) : Bool :=
  let fold := fun c : Char =>
    if c.toNat = 0x17F then 's' else if c.toNat = 0x130 then c else lowerChar c
  cs.map fold = text.map fold

/-- A number rendered with `%d`. -/
def ofNat (n : Nat) : List Char := (toString n).toList

/-! ### Words and white space -/

theorem trimSuffix_append {s suffix : String} (h : hasSuffix s suffix = true) :
    trimSuffix s suffix ++ suffix = s := by
  obtain ⟨rest, hrest⟩ := isSuffixOf_iff_suffix.mp h
  rw [trimSuffix, if_pos h]
  apply String.ext
  simp [← hrest]

theorem isSpace_of_isDigit (h : isDigit c = true) : isSpace c = false := by
  simp only [isDigit, Bool.and_eq_true, decide_eq_true_eq, Char.le_def, UInt32.le_iff_toNat_le] at h
  have hlo : 48 ≤ c.toNat := h.1
  have hhi : c.toNat ≤ 57 := h.2
  simp only [isSpace, Bool.or_eq_false_iff, Bool.and_eq_false_iff, decide_eq_false_iff_not]
  omega

variable {cs : List Char}

theorem trim_eq_self {p : Char → Bool} (h : ∀ c ∈ cs, p c = false) :
    ((cs.dropWhile p).reverse.dropWhile p).reverse = cs := by
  have hself : ∀ l : List Char, (∀ c ∈ l, p c = false) → l.dropWhile p = l := by
    intro l hl
    cases l with
    | nil => rfl
    | cons c rest => rw [dropWhile_cons_of_neg (by simp [hl c (by simp)])]
  rw [hself cs h, hself cs.reverse fun c hc => h c (mem_reverse.mp hc), reverse_reverse]

theorem fieldsFrom_word {word : List Char} (hne : word ++ cs ≠ [])
    (h : ∀ c ∈ cs, isSpace c = false) : fieldsFrom word cs = [word ++ cs] := by
  induction cs generalizing word with
  | nil =>
    rw [append_nil] at hne
    simp [fieldsFrom, hne]
  | cons c rest ih =>
    have hc := h c (by simp)
    rw [fieldsFrom, if_neg (by simp [hc]), ih (by simp) fun d hd => h d (by simp [hd])]
    simp

theorem fieldsFrom_two {word rest : List Char} (hne : word ++ rest ≠ []) (hcs : cs ≠ [])
    (hrest : ∀ c ∈ rest, isSpace c = false) (h : ∀ c ∈ cs, isSpace c = false) :
    fieldsFrom word (rest ++ ' ' :: cs) = [word ++ rest, cs] := by
  induction rest generalizing word with
  | nil =>
    rw [append_nil] at hne ⊢
    rw [nil_append, fieldsFrom, if_pos (by decide), if_neg hne, fieldsFrom_word (by simpa) h]
    rfl
  | cons c rest ih =>
    have hc := hrest c (by simp)
    rw [cons_append, fieldsFrom, if_neg (by simp [hc]),
      ih (by simp) fun d hd => hrest d (by simp [hd])]
    simp

theorem trimSpace_ne_nil {rest : List Char} (h : isSpace c = false) :
    trimSpace (c :: rest) ≠ [] := by
  intro hnil
  rw [trimSpace, dropWhile_cons_of_neg (by simp [h]), reverse_eq_nil_iff,
    dropWhile_eq_nil_iff] at hnil
  rw [hnil c (by simp)] at h
  cases h

theorem eq_append_trimSpace (cs : List Char) :
    ∃ lead trail, cs = lead ++ (trimSpace cs ++ trail) ∧ (∀ c ∈ lead, isSpace c = true) ∧
      ∀ c ∈ trail, isSpace c = true := by
  set mid := cs.dropWhile isSpace with hmid
  refine ⟨cs.takeWhile isSpace, (mid.reverse.takeWhile isSpace).reverse, ?_, ?_, ?_⟩
  · have hright : trimSpace cs ++ (mid.reverse.takeWhile isSpace).reverse = mid := by
      rw [trimSpace, ← hmid, ← reverse_append, takeWhile_append_dropWhile, reverse_reverse]
    rw [hright, takeWhile_append_dropWhile]
  · exact fun c hc => mem_takeWhile_imp hc
  · exact fun c hc => mem_takeWhile_imp (mem_reverse.mp hc)

theorem trimSpace_eq_rdropWhile (cs : List Char) :
    trimSpace cs = (cs.dropWhile isSpace).rdropWhile isSpace := rfl

theorem head?_trimSpace (cs : List Char) :
    (trimSpace cs).head? = (cs.dropWhile isSpace).head? := by
  rw [trimSpace_eq_rdropWhile]
  cases hmid : cs.dropWhile isSpace with
  | nil => rfl
  | cons c rest =>
    have hc : isSpace c = false := by
      have hnot := head?_dropWhile_not isSpace cs
      rw [hmid] at hnot
      simpa using hnot
    have hprefix := rdropWhile_prefix isSpace (c :: rest)
    cases htrim : (c :: rest).rdropWhile isSpace with
    | nil =>
      rw [rdropWhile_eq_nil_iff] at htrim
      simp [htrim c (by simp)] at hc
    | cons d ds =>
      rw [htrim, cons_prefix_cons] at hprefix
      simp [ hprefix.1]

theorem isSpace_getLast_trimSpace (h : c ∈ (trimSpace cs).getLast?) :
    isSpace c = false := by
  rw [trimSpace_eq_rdropWhile] at h
  have hne : (cs.dropWhile isSpace).rdropWhile isSpace ≠ [] := by
    intro hnil
    simp [hnil] at h
  rw [getLast?_eq_some_getLast hne, Option.mem_some_iff] at h
  rw [← h]
  simpa using rdropWhile_last_not isSpace (cs.dropWhile isSpace) hne

theorem trimSpace_eq_self (hhead : ∀ c ∈ cs.head?, isSpace c = false)
    (hlast : ∀ c ∈ cs.getLast?, isSpace c = false) : trimSpace cs = cs := by
  have hdrop : cs.dropWhile isSpace = cs := by
    cases cs with
    | nil => rfl
    | cons c cs => rw [dropWhile_cons_of_neg (by simp [hhead c (by simp)])]
  rw [trimSpace_eq_rdropWhile, hdrop, rdropWhile_eq_self_iff]
  intro hne
  simp [hlast _ (getLast?_eq_some_getLast hne)]

theorem splitOn_cons (sep c : Char) (cs : List Char) :
    (c :: cs).splitOn sep =
      if c = sep then [] :: cs.splitOn sep else (cs.splitOn sep).modifyHead (c :: ·) := by
  simp [splitOn, splitOnP_cons_eq_if_modifyHead]

variable {sep : Char}

theorem two_le_length_splitOn (h : sep ∈ cs) :
    2 ≤ (cs.splitOn sep).length := by
  induction cs with
  | nil => cases h
  | cons c cs ih =>
    rw [splitOn_cons]
    split
    · have hne : (cs.splitOn sep).length ≠ 0 := by simp
      rw [length_cons]
      omega
    · rename_i hc
      simpa using ih (by simpa [Ne.symm hc] using h)

/-- The first piece is what stands before the first separator. -/
theorem splitOn_eq_takeWhile_cons (sep : Char) (cs : List Char) :
    ∃ pieces, cs.splitOn sep = cs.takeWhile (· ≠ sep) :: pieces := by
  induction cs with
  | nil => exact ⟨[], rfl⟩
  | cons c cs ih =>
    obtain ⟨pieces, ih⟩ := ih
    rw [splitOn_cons]
    by_cases hc : c = sep
    · exact ⟨cs.splitOn sep, by simp [hc]⟩
    · exact ⟨pieces, by simp [hc, ih]⟩

theorem mem_of_mem_splitOn {piece : List Char} (h : piece ∈ cs.splitOn sep)
    (hc : c ∈ piece) : c ∈ cs ∧ c ≠ sep := by
  induction cs generalizing piece with
  | nil => simp_all
  | cons d cs ih =>
    have hrest : ∀ piece ∈ cs.splitOn sep, c ∈ piece → c ∈ d :: cs ∧ c ≠ sep := by
      intro piece hpiece hc
      obtain ⟨hmem, hne⟩ := ih hpiece hc
      exact ⟨mem_cons_of_mem _ hmem, hne⟩
    rw [splitOn_cons] at h
    split_ifs at h with hd
    · rcases mem_cons.mp h with rfl | h
      · simp at hc
      · exact hrest piece h hc
    cases hsplit : cs.splitOn sep with
    | nil => simp [hsplit] at h
    | cons first pieces =>
      rw [hsplit, modifyHead_cons, mem_cons] at h
      rcases h with rfl | h
      · rcases mem_cons.mp hc with rfl | hc
        · exact ⟨mem_cons_self, hd⟩
        · exact hrest first (by simp [hsplit]) hc
      · exact hrest piece (by simp [hsplit, h]) hc

theorem notMem_of_mem_splitOn {piece : List Char} (h : piece ∈ cs.splitOn sep) :
    sep ∉ piece := fun hc => (mem_of_mem_splitOn h hc).2 rfl

theorem exists_piece_of_mem (h : c ∈ cs) (hc : c ≠ sep) :
    ∃ piece ∈ cs.splitOn sep, c ∈ piece := by
  induction cs with
  | nil => simp at h
  | cons d cs ih =>
    obtain ⟨pieces, hsplit⟩ := splitOn_eq_takeWhile_cons sep cs
    rw [splitOn_cons]
    rcases mem_cons.mp h with rfl | h
    · exact ⟨c :: cs.takeWhile (· ≠ sep), by simp [hc, hsplit], mem_cons_self⟩
    obtain ⟨piece, hpiece, hmem⟩ := ih h
    split_ifs with hd
    · exact ⟨piece, mem_cons_of_mem _ hpiece, hmem⟩
    · rw [hsplit] at hpiece ⊢
      rcases mem_cons.mp hpiece with rfl | hpiece
      · exact ⟨_, mem_cons_self, mem_cons_of_mem _ hmem⟩
      · exact ⟨piece, mem_cons_of_mem _ hpiece, hmem⟩

theorem split_ne_nil (s : String) (sep : Char) : split s sep ≠ [] := by
  simp [split, splitOn_ne_nil]

theorem isSpace_of_parseInt (h : (parseInt cs).isSome = true) :
    ∀ c ∈ cs, isSpace c = false := by
  have hdigits : ∀ digits : List Char, digits.all isDigit = true →
      ∀ c ∈ digits, isSpace c = false := fun digits hall c hc =>
    isSpace_of_isDigit (all_eq_true.mp hall c hc)
  unfold parseInt at h
  split at h
  rename_i negative digits hsign
  have hall : digits.all isDigit = true := by
    by_contra hnot
    simp [hnot] at h
  split at hsign <;> cases hsign
  · exact forall_mem_cons.mpr ⟨by decide, hdigits _ hall⟩
  · exact forall_mem_cons.mpr ⟨by decide, hdigits _ hall⟩
  · exact hdigits _ hall

theorem ofNat_eq_toDigits (n : Nat) : ofNat n = Nat.toDigits 10 n := by
  simp [ofNat, Nat.toString_eq_repr, Nat.toList_repr]

theorem ofNat_ne_nil (n : Nat) : ofNat n ≠ [] := by
  rw [ofNat_eq_toDigits]
  exact Nat.toDigits_ne_nil

theorem isDigit_of_mem_ofNat {n : Nat} (h : c ∈ ofNat n) : isDigit c = true := by
  rw [ofNat_eq_toDigits] at h
  have hdigit := Nat.isDigit_of_mem_toDigits (by decide) (by decide) h
  simpa [isDigit, Char.isDigit, Char.le_def] using hdigit

theorem decimalValue_ofNat (n : Nat) : decimalValue (ofNat n) = n := by
  have h := Nat.ofDigitChars_ten_toDigits (n := n)
  rw [Nat.ofDigitChars_eq_foldl] at h
  rw [ofNat_eq_toDigits]
  exact h

theorem ofNat_inj {n m : Nat} (h : ofNat n = ofNat m) : n = m := by
  rw [← decimalValue_ofNat n, h, decimalValue_ofNat]

theorem parseUint_ofNat {n : Nat} (h : n < 2 ^ 64) : parseUint (ofNat n) = some n := by
  have hdigits : (ofNat n).all isDigit = true := all_eq_true.mpr fun _ hc =>
    isDigit_of_mem_ofNat hc
  rw [parseUint, decimalValue_ofNat, if_pos ⟨ofNat_ne_nil n, hdigits, h⟩]

/-- A run of characters that is followed by another one is read whole. -/
theorem span_append {p : Char → Bool} {xs ys : List Char} (hall : ∀ c ∈ xs, p c = true)
    (hhead : ∀ c ∈ ys.head?, p c = false) :
    (xs ++ ys).takeWhile p = xs ∧ (xs ++ ys).dropWhile p = ys := by
  rw [takeWhile_append_of_pos hall, dropWhile_append_of_pos hall]
  cases ys with
  | nil => simp
  | cons c ys => simp [hhead c rfl]

/-- A text that does not go on with a digit. -/
def EndsNumber (cs : List Char) : Prop := ∀ c ∈ cs.head?, isDigit c = false

/-- A rendered number can be read off a text that does not go on with a digit. -/
theorem ofNat_append_inj {n m : Nat} {s t : List Char} (hs : EndsNumber s) (ht : EndsNumber t)
    (h : ofNat n ++ s = ofNat m ++ t) : n = m ∧ s = t := by
  have hread : ∀ (k : Nat) (r : List Char), EndsNumber r →
      (ofNat k ++ r).takeWhile isDigit = ofNat k :=
    fun _ _ hr => (span_append (fun _ hc => isDigit_of_mem_ofNat hc) hr).1
  have hdigits : ofNat n = ofNat m := by rw [← hread n s hs, h, hread m t ht]
  rw [hdigits] at h
  exact ⟨ofNat_inj hdigits, append_cancel_left h⟩

/-- The escape `strconv.Quote` writes for a character that is not printable. -/
def escape (c : Char) : List Char :=
  match c.toNat with
  | 7 => ['\\', 'a']
  | 8 => ['\\', 'b']
  | 9 => ['\\', 't']
  | 10 => ['\\', 'n']
  | 11 => ['\\', 'v']
  | 12 => ['\\', 'f']
  | 13 => ['\\', 'r']
  | n =>
    let hex (width : Nat) := (replicate width '0' ++ Nat.toDigits 16 n).reverse.take width
    if n < 0x20 ∨ n = 0x7F then '\\' :: 'x' :: (hex 2).reverse
    else if n < 0x10000 then '\\' :: 'u' :: (hex 4).reverse
    else '\\' :: 'U' :: (hex 8).reverse

/-- `strconv.Quote`, which also renders `%q`. -/
def quote (isPrint : Char → Bool) (s : String) : String :=
  "\"" ++ String.ofList (s.toList.flatMap fun c =>
    if c = '"' ∨ c = '\\' then ['\\', c] else if isPrint c then [c] else escape c) ++ "\""

end GoString
