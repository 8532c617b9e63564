import IngressController.Nginx.ConfToken

/-! # The directives of a block

`ngx_conf_parse` calls the tokenizer once for every directive. `ConfBlock` reads
on after a semicolon and records the directives it has seen; a block that is
opened or closed, or a byte that is not allowed, stops it.

An unquoted word is copied up to the first byte that ends it. `takeWord` is that
byte loop without the tokenizer's state, and `plainWord` says of which words the
tokenizer makes exactly one argument with the same bytes.
-/

namespace IngressController.Nginx

open List ConfToken
open Char (toUInt8)
open Utf8 (Bytes)
open Stepper (Verdict run)

structure ConfBlock where
  token : ConfToken := {}
  directives : List (List Bytes) := []
deriving DecidableEq

variable {t : ConfToken}

namespace ConfBlock

/-- One byte; after a finished directive the tokenizer starts afresh. -/
def step (s : ConfBlock) (ch : UInt8) : Verdict ConfBlock ConfEnd :=
  match s.token.step ch with
  | .more token => .more { s with token := token }
  | .stop (.ok args) => .more { token := {}, directives := s.directives ++ [args] }
  | .stop ending => .stop ending

def read (s : ConfBlock) (bytes : Bytes) : Verdict ConfBlock (ConfEnd × Bytes) :=
  run step s bytes

/-- The state inside a directive, at a place where the next argument may start. -/
def atArgument (args : List Bytes) (directives : List (List Bytes)) : ConfBlock :=
  { token := { args := args }, directives := directives }

def between (directives : List (List Bytes)) : ConfBlock := atArgument [] directives

variable {ch : UInt8} {s : ConfBlock}

theorem read_of_more (rest : Bytes) (h : s.token.step ch = .more t) :
    s.read (ch :: rest) = { s with token := t }.read rest :=
  Stepper.run_cons_of_more (by rw [step, h]) rest

theorem read_of_ok {args : List Bytes} (rest : Bytes) (h : s.token.step ch = .stop (.ok args)) :
    s.read (ch :: rest) = (between (s.directives ++ [args])).read rest :=
  Stepper.run_cons_of_more (by rw [step, h]; rfl) rest

theorem read_of_stop {ending : ConfEnd} (rest : Bytes) (h : s.token.step ch = .stop ending)
    (hok : ∀ args, ending ≠ .ok args) : s.read (ch :: rest) = .stop (ending, rest) := by
  apply Stepper.run_cons_of_stop
  rw [step, h]
  cases ending with
  | ok args => exact absurd rfl (hok args)
  | _ => rfl

end ConfBlock

/-- The raw bytes of an unquoted word, the byte that ends it and the rest; `none` when the text
ends first. The flags are those of the tokenizer. -/
def takeWord (inVariable quoted : Bool) : Bytes → Option (Bytes × UInt8 × Bytes)
  | [] => none
  | ch :: rest =>
    let next := fun v q => (takeWord v q rest).map fun (word, ending) => (ch :: word, ending)
    if quoted then next inVariable false
    else if ch = '\x7b'.toUInt8 && inVariable then next inVariable false
    else if ch = '\\'.toUInt8 then next false true
    else if ch = '$'.toUInt8 then next true false
    else if isConfSpace ch || ch = ';'.toUInt8 || ch = '\x7b'.toUInt8 then some ([], ch, rest)
    else next false false

/-- The text is the word, its end and the rest. -/
theorem eq_append_of_takeWord {bytes word rest : Bytes} {inVariable quoted : Bool} {ch : UInt8}
    (h : takeWord inVariable quoted bytes = some (word, ch, rest)) :
    bytes = word ++ ch :: rest := by
  induction bytes generalizing inVariable quoted word with
  | nil => cases h
  | cons b bytes ih =>
    have hnext : ∀ v q, (takeWord v q bytes).map (fun (word, ending) => (b :: word, ending)) =
        some (word, ch, rest) → b :: bytes = word ++ ch :: rest := by
      intro v q hmap
      obtain ⟨⟨word', ch', rest'⟩, htake, heq⟩ := Option.map_eq_some_iff.mp hmap
      cases heq
      rw [ih htake]
      rfl
    rw [takeWord] at h
    split_ifs at h
    all_goals first
      | exact hnext _ _ h
      | (cases h; rfl)

def ConfToken.inWord (inVariable quoted : Bool) (word : Bytes) (args : List Bytes) : ConfToken where
  lastSpace := false
  inVariable := inVariable
  quoted := quoted
  word := word
  args := args

attribute [local simp] step inToken found inWord

/-- How reading goes on after an unquoted word: at the next argument, after the directive, or in
a block. -/
def ConfBlock.afterWord (args : List Bytes) (directives : List (List Bytes)) (ch : UInt8)
    (rest : Bytes) : Verdict ConfBlock (ConfEnd × Bytes) :=
  if isConfSpace ch then (atArgument args directives).read rest
  else if ch = ';'.toUInt8 then (between (directives ++ [args])).read rest
  else .stop (.blockStart args, rest)

section Word

variable {args : List Bytes} {directives : List (List Bytes)} {raw bytes word rest : Bytes}
  {v q : Bool} {b ch : UInt8}

theorem ConfBlock.read_wordEnd (hback : b ≠ '\\'.toUInt8) (hdollar : b ≠ '$'.toUInt8)
    (hbrace : (b = '\x7b'.toUInt8 && v) = false)
    (hends : isConfSpace b = true ∨ b = ';'.toUInt8 ∨ b = '\x7b'.toUInt8) :
    ConfBlock.read ⟨.inWord v false raw args, directives⟩ (b :: bytes) =
      afterWord (args ++ [unescapeWord raw]) directives b bytes := by
  rw [afterWord]
  by_cases hspace : isConfSpace b = true
  · rw [if_pos hspace]
    refine read_of_more _ ?_
    simp [hbrace, hback, hdollar, hspace]
  rw [if_neg hspace]
  by_cases hsemi : b = ';'.toUInt8
  · rw [if_pos hsemi]
    refine read_of_ok _ ?_
    subst hsemi
    simp [isConfSpace, toUInt8]
  · rw [if_neg hsemi]
    have hopen : b = '\x7b'.toUInt8 := by simpa [hspace, hsemi] using hends
    subst hopen
    have hv : v = false := by simpa using hbrace
    subst hv
    refine read_of_stop _ ?_ (by simp)
    simp [isConfSpace, toUInt8]

/-- A byte inside an unquoted word is copied or ends the word. -/
theorem ConfBlock.inWord_byte (v q : Bool) (raw : Bytes) (args : List Bytes)
    (directives : List (List Bytes)) (b : UInt8) :
    (∃ v' q', (inWord v q raw args).step b = .more (.inWord v' q' (raw ++ [b]) args) ∧
      ∀ bytes, takeWord v q (b :: bytes) =
        (takeWord v' q' bytes).map fun (word, ending) => (b :: word, ending)) ∨
    ∀ bytes, takeWord v q (b :: bytes) = some ([], b, bytes) ∧
      ConfBlock.read ⟨.inWord v q raw args, directives⟩ (b :: bytes) =
        afterWord (args ++ [unescapeWord raw]) directives b bytes := by
  cases q with
  | true => exact .inl ⟨v, false, by simp, fun _ => rfl⟩
  | false =>
    by_cases hbrace : (b = '\x7b'.toUInt8 && v) = true
    · refine .inl ⟨v, false, ?_, fun bytes => by simp [takeWord, hbrace]⟩
      simp [hbrace]
    by_cases hback : b = '\\'.toUInt8
    · subst hback
      refine .inl ⟨false, true, ?_, fun bytes => by simp [takeWord, toUInt8]⟩
      simp [toUInt8]
    by_cases hdollar : b = '$'.toUInt8
    · subst hdollar
      refine .inl ⟨true, false, ?_, fun bytes => by simp [takeWord, toUInt8]⟩
      simp [toUInt8]
    by_cases hends : isConfSpace b = true ∨ b = ';'.toUInt8 ∨ b = '\x7b'.toUInt8
    · refine .inr fun bytes => ⟨?_, read_wordEnd hback hdollar (by simpa using hbrace) hends⟩
      simp only [takeWord, Bool.false_eq_true, if_false, if_neg hbrace, if_neg hback,
        if_neg hdollar]
      rw [if_pos (by simpa [or_assoc] using hends)]
    · simp only [not_or] at hends
      refine .inl ⟨false, false, ?_, fun bytes => ?_⟩
      · simp [hback, hdollar, hends]
      · simp [takeWord, hback, hdollar, hends]

theorem ConfBlock.read_inWord (h : takeWord v q bytes = some (word, ch, rest)) :
    ConfBlock.read ⟨.inWord v q raw args, directives⟩ bytes =
      afterWord (args ++ [unescapeWord (raw ++ word)]) directives ch rest := by
  induction bytes generalizing v q raw word with
  | nil => cases h
  | cons b bytes ih =>
    rcases inWord_byte v q raw args directives b with ⟨v', q', hstep, htake⟩ | hends
    · rw [htake] at h
      obtain ⟨⟨word', ch', rest'⟩, hrest, heq⟩ := Option.map_eq_some_iff.mp h
      cases heq
      rw [read_of_more bytes hstep, ih hrest, append_assoc]
      rfl
    · obtain ⟨htake, hread⟩ := hends bytes
      rw [htake] at h
      cases h
      rw [append_nil, hread]

theorem ConfBlock.read_inWord_none (raw : Bytes) (args : List Bytes)
    (directives : List (List Bytes)) (h : takeWord v q bytes = none) :
    ∃ t, ConfBlock.read ⟨.inWord v q raw args, directives⟩ bytes = .more ⟨t, directives⟩ := by
  induction bytes generalizing v q raw with
  | nil => exact ⟨_, rfl⟩
  | cons b bytes ih =>
    rcases inWord_byte v q raw args directives b with ⟨v', q', hstep, htake⟩ | hends
    · rw [htake] at h
      rw [read_of_more bytes hstep]
      exact ih _ (Option.map_eq_none_iff.mp h)
    · rw [(hends bytes).1] at h
      cases h

end Word

/-! ## Words that are read as they stand -/

/-- The bytes in front of which the tokenizer drops a backslash. -/
def dropsBackslash (c : UInt8) : Bool :=
  c = '"'.toUInt8 || c = '\''.toUInt8 || c = '\\'.toUInt8 || c = 't'.toUInt8 ||
    c = 'r'.toUInt8 || c = 'n'.toUInt8

/-- No white space, no brace but right after a dollar sign, no backslash that is dropped or that
escapes what follows the word. An escaped byte counts for nothing else. -/
def plainWord : Bool → Bytes → Bool
  | _, [] => true
  | afterDollar, b :: rest =>
    if b = '\\'.toUInt8 then
      match rest with
      | [] => false
      | c :: rest => !dropsBackslash c && plainWord false rest
    else if b = '\x7b'.toUInt8 then afterDollar && plainWord true rest
    else !isConfSpace b && plainWord (b = '$'.toUInt8) rest

theorem unescapeWord_escape {c : UInt8} (rest : Bytes) (h : dropsBackslash c = true) :
    ∃ c', unescapeWord ('\\'.toUInt8 :: c :: rest) = c' :: unescapeWord rest := by
  simp only [dropsBackslash, Bool.or_eq_true, decide_eq_true_eq] at h
  rw [unescapeWord, if_pos rfl]
  split_ifs with h1 h2 h3 h4
  · exact ⟨_, rfl⟩
  · exact ⟨_, rfl⟩
  · exact ⟨_, rfl⟩
  · exact ⟨_, rfl⟩
  · simp_all

variable {b : UInt8}

theorem unescapeWord_keep {c : UInt8} (rest : Bytes)
    (h : b ≠ '\\'.toUInt8 ∨ dropsBackslash c = false) :
    unescapeWord (b :: c :: rest) = b :: unescapeWord (c :: rest) := by
  rw [unescapeWord]
  by_cases hb : b = '\\'.toUInt8
  · have hc : dropsBackslash c = false := by simpa [hb] using h
    simp only [dropsBackslash, Bool.or_eq_false_iff, decide_eq_false_iff_not] at hc
    simp [hb, hc]
  · rw [if_neg hb]

/-- Induction along the copy loop. -/
theorem unescapeWord_induction {motive : Bytes → Prop} (nil : motive [])
    (single : ∀ b, motive [b])
    (escape : ∀ c rest, dropsBackslash c = true → motive rest →
      motive ('\\'.toUInt8 :: c :: rest))
    (keep : ∀ b c rest, b ≠ '\\'.toUInt8 ∨ dropsBackslash c = false → motive (c :: rest) →
      motive (b :: c :: rest)) (w : Bytes) : motive w := by
  induction hn : w.length using Nat.strong_induction_on generalizing w with
  | _ n ih =>
    match w, hn with
    | [], _ => exact nil
    | [b], _ => exact single b
    | b :: c :: rest, hn =>
      simp only [length_cons] at hn
      by_cases h : b = '\\'.toUInt8 ∧ dropsBackslash c = true
      · obtain ⟨rfl, hc⟩ := h
        exact escape c rest hc (ih rest.length (by omega) rest rfl)
      · refine keep b c rest ?_ (ih (c :: rest).length (by simp; omega) _ rfl)
        by_cases hb : b = '\\'.toUInt8
        · exact .inr (by simpa [hb] using h)
        · exact .inl hb

/-- Reading a word never makes it longer, and only a word without dropped backslashes keeps its
length. -/
theorem length_unescapeWord (w : Bytes) :
    (unescapeWord w).length ≤ w.length ∧
      ((unescapeWord w).length = w.length → unescapeWord w = w) := by
  induction w using unescapeWord_induction with
  | nil | single => exact ⟨le_refl _, fun _ => rfl⟩
  | escape c rest hc ih =>
    obtain ⟨c', heq⟩ := unescapeWord_escape rest hc
    rw [heq, length_cons, length_cons, length_cons]
    exact ⟨by omega, by omega⟩
  | keep b c rest h ih =>
    rw [unescapeWord_keep rest h, length_cons, length_cons]
    refine ⟨by omega, fun hlen => ?_⟩
    rw [ih.2 (by omega)]

variable {w : Bytes} {d : UInt8}

theorem mem_unescapeWord (hd : dropsBackslash d = false) (h : d ∈ w) :
    d ∈ unescapeWord w := by
  induction w using unescapeWord_induction with
  | nil => exact h
  | single b => exact h
  | escape c rest hc ih =>
    obtain ⟨c', heq⟩ := unescapeWord_escape rest hc
    have hne : d ≠ '\\'.toUInt8 := by
      rintro rfl
      exact absurd hd (by decide)
    have hne' : d ≠ c := by
      rintro rfl
      simp [hc] at hd
    rw [heq]
    exact mem_cons_of_mem _ (ih (by simpa [hne, hne'] using h))
  | keep b c rest hb ih =>
    rw [unescapeWord_keep rest hb]
    rcases mem_cons.mp h with rfl | h
    · exact mem_cons_self
    · exact mem_cons_of_mem _ (ih h)

def endsWord (d : UInt8) : Bool := isConfSpace d || d = ';'.toUInt8

theorem dropsBackslash_of_endsWord (h : endsWord d = true) :
    dropsBackslash d = false := by
  simp only [endsWord, isConfSpace, Bool.or_eq_true, decide_eq_true_eq] at h
  rcases h with (((rfl | rfl) | rfl) | rfl) | rfl <;> decide

theorem takeWord_endsWord (v : Bool) (rest : Bytes) (h : endsWord d = true) :
    takeWord v false (d :: rest) = some ([], d, rest) := by
  have hne : d ≠ '\x7b'.toUInt8 ∧ d ≠ '\\'.toUInt8 ∧ d ≠ '$'.toUInt8 := by
    refine ⟨?_, ?_, ?_⟩ <;> (rintro rfl; exact absurd h (by decide))
  rw [endsWord] at h
  simp [takeWord, hne, h]

theorem unescapeWord_cons (w : Bytes) (hb : b ≠ '\\'.toUInt8) :
    unescapeWord (b :: w) = b :: unescapeWord w := by
  cases w with
  | nil => rfl
  | cons c rest => exact unescapeWord_keep rest (.inl hb)

theorem plainWord_cons (v : Bool) (w : Bytes) (hb : b ≠ '\\'.toUInt8) :
    plainWord v (b :: w) = if b = '\x7b'.toUInt8 then v && plainWord true w
      else !isConfSpace b && plainWord (b = '$'.toUInt8) w := by
  rw [plainWord.eq_def]
  simp [hb]

theorem map_cons_eq_some {e : UInt8 × Bytes} {o : Option (Bytes × UInt8 × Bytes)} :
    (o.map fun (word, ending) => (b :: word, ending)) = some (b :: w, e) ↔ o = some (w, e) := by
  rcases o with _ | ⟨word, ending⟩ <;> simp

theorem takeWord_escape {c : UInt8} (v : Bool) (w bytes : Bytes) (e : UInt8 × Bytes) :
    takeWord v false ('\\'.toUInt8 :: c :: bytes) = some ('\\'.toUInt8 :: c :: w, e) ↔
      takeWord false false bytes = some (w, e) := by
  rw [← map_cons_eq_some (b := c), ← map_cons_eq_some (b := '\\'.toUInt8)]
  simp [takeWord, toUInt8]

theorem takeWord_cons (v : Bool) (w bytes : Bytes) (e : UInt8 × Bytes) (hback : b ≠ '\\'.toUInt8) :
    takeWord v false (b :: bytes) = some (b :: w, e) ↔
      if b = '\x7b'.toUInt8 then v = true ∧ takeWord true false bytes = some (w, e)
      else endsWord b = false ∧ takeWord (b = '$'.toUInt8) false bytes = some (w, e) := by
  simp only [takeWord, Bool.false_eq_true, if_false, if_neg hback]
  by_cases hopen : b = '\x7b'.toUInt8
  · cases v with
    | true => simp [hopen]
    | false => simp [hopen, toUInt8]
  by_cases hdollar : b = '$'.toUInt8
  · subst hdollar
    simp [hopen, show endsWord '$'.toUInt8 = false by decide]
  cases hends : endsWord b with
  | true | false =>
    rw [endsWord] at hends
    simp [hopen, hdollar, hends]

/-- Words without a semicolon are plain exactly if the tokenizer copies them whole and unchanged. -/
theorem plainWord_iff {v : Bool} (rest : Bytes) (hd : endsWord d = true) (hw : ';'.toUInt8 ∉ w) :
    plainWord v w = true ↔
      takeWord v false (w ++ d :: rest) = some (w, d, rest) ∧ unescapeWord w = w := by
  induction hn : w.length using Nat.strong_induction_on generalizing v w with
  | _ n ih =>
    cases w with
    | nil => simp [plainWord, takeWord_endsWord v rest hd, unescapeWord]
    | cons b w =>
      simp only [length_cons] at hn
      have hsemi : b ≠ ';'.toUInt8 := fun h => hw (by simp [h])
      have hw' : ';'.toUInt8 ∉ w := fun h => hw (by simp [h])
      by_cases hback : b = '\\'.toUInt8
      · subst hback
        cases w with
        | nil =>
          -- the escape swallows the byte after the word
          simp [plainWord, takeWord, Option.map_map, toUInt8]
        | cons c w =>
          have hrec := ih w.length (by simp at hn; omega) (v := false) (w := w)
            (fun h => hw' (by simp [h])) rfl
          cases hc : dropsBackslash c with
          | true =>
            obtain ⟨c', heq⟩ := unescapeWord_escape w hc
            have hlen := (length_unescapeWord w).1
            have hne : unescapeWord ('\\'.toUInt8 :: c :: w) ≠ '\\'.toUInt8 :: c :: w := by
              intro h
              have := congrArg length h
              simp [heq] at this
              omega
            simp [plainWord, hc, hne]
          | false =>
            have hcb : c ≠ '\\'.toUInt8 := by
              rintro rfl
              exact absurd hc (by decide)
            rw [cons_append, cons_append, takeWord_escape,
              unescapeWord_keep w (.inr hc), unescapeWord_cons w hcb]
            simpa [plainWord, hc] using hrec
      · have hrec : ∀ v', plainWord v' w = true ↔
            takeWord v' false (w ++ d :: rest) = some (w, d, rest) ∧ unescapeWord w = w :=
          fun v' => ih w.length (by omega) hw' rfl
        rw [unescapeWord_cons w hback, plainWord_cons v w hback, cons_append,
          takeWord_cons v w _ _ hback]
        split_ifs with hopen
        · simp [hrec, and_assoc]
        · simp [hrec, endsWord, hsemi, and_assoc]

/-- A word the tokenizer copies unchanged ends where it should. -/
theorem eq_of_unescapeWord_eq {bytes raw rest : Bytes} {v : Bool} {ch : UInt8}
    (hd : endsWord d = true) (hw : d ∉ w)
    (htake : takeWord v false (w ++ d :: bytes) = some (raw, ch, rest)) (h : unescapeWord raw = w) :
    raw = w ∧ ch = d ∧ rest = bytes := by
  have htext := eq_append_of_takeWord htake
  have hraw : d ∉ raw := fun hmem =>
    hw (h ▸ mem_unescapeWord (dropsBackslash_of_endsWord hd) hmem)
  obtain ⟨hlen, -⟩ := length_unescapeWord raw
  rw [h] at hlen
  -- the word is no longer than its raw text, which stops at the first delimiter
  obtain ⟨more, rfl⟩ : w <+: raw := by
    rw [append_eq_append_iff] at htext
    rcases htext with ⟨a, rfl, -⟩ | ⟨a, rfl, -⟩
    · exact prefix_append _ _
    · simp only [length_append] at hlen
      have ha : a = [] := eq_nil_of_length_eq_zero (by omega)
      simp [ha]
  have hmore : more = [] := by
    rw [append_assoc, append_cancel_left_eq] at htext
    cases more with
    | nil => rfl
    | cons c more =>
      rw [cons_append, cons.injEq] at htext
      exact absurd (by simp [htext.1]) hraw
  subst hmore
  simpa [eq_comm] using htext

/-! ## Arguments are never taken back -/

variable (ch : UInt8)

theorem ConfToken.args_atStart : (∀ t', t.atStart ch = .more t' → t.args <+: t'.args) ∧
      ∀ args, t.atStart ch = .stop (.ok args) → t.args <+: args := by
  unfold ConfToken.atStart
  split_ifs <;> simp

theorem ConfToken.args_inToken : (∀ t', t.inToken ch = .more t' → t.args <+: t'.args) ∧
      ∀ args, t.inToken ch = .stop (.ok args) → t.args <+: args := by
  unfold ConfToken.inToken
  dsimp only
  split_ifs <;> simp

theorem ConfToken.args_step : (∀ t', t.step ch = .more t' → t.args <+: t'.args) ∧
      ∀ args, t.step ch = .stop (.ok args) → t.args <+: args := by
  unfold ConfToken.step
  dsimp only
  split_ifs
  all_goals first
    | exact ConfToken.args_atStart (t := { t with sharpComment := false }) ch
    | exact ConfToken.args_inToken (t := { t with sharpComment := false }) ch
    | exact ConfToken.args_atStart
        (t := { t with sharpComment := false, lastSpace := true, needSpace := false }) ch
    | simp

/-! ## The arguments of a directive -/

def startsWord (b : UInt8) : Bool :=
  !isConfSpace b && b ≠ ';'.toUInt8 && b ≠ '\x7b'.toUInt8 && b ≠ '\x7d'.toUInt8 &&
    b ≠ '#'.toUInt8 && b ≠ '\\'.toUInt8 && b ≠ '"'.toUInt8 && b ≠ '\''.toUInt8

namespace ConfBlock

variable {args : List Bytes} {directives : List (List Bytes)} {bytes word rest : Bytes}
  {b ch : UInt8}

theorem read_space (hb : isConfSpace b = true) :
    (atArgument args directives).read (b :: bytes) = (atArgument args directives).read bytes :=
  read_of_more bytes (by simp [atArgument, atStart, hb])

theorem read_semicolon (hargs : args ≠ []) :
    (atArgument args directives).read (';'.toUInt8 :: bytes) =
      (between (directives ++ [args])).read bytes := by
  refine read_of_ok bytes ?_
  simp [atArgument, atStart, hargs, isConfSpace, toUInt8]

theorem read_startsWord (hb : startsWord b = true) :
    (atArgument args directives).read (b :: bytes) =
      ConfBlock.read ⟨.inWord (b = '$'.toUInt8) false [b] args, directives⟩ bytes := by
  simp only [startsWord, Bool.and_eq_true, Bool.not_eq_true', decide_eq_true_eq, ne_eq] at hb
  refine read_of_more bytes ?_
  by_cases hdollar : b = '$'.toUInt8
  · subst hdollar
    simp [atArgument, atStart, isConfSpace, toUInt8]
  · simp [atArgument, atStart, hb, hdollar]

theorem takeWord_startsWord (hb : startsWord b = true) :
    takeWord false false (b :: bytes) =
      (takeWord (b = '$'.toUInt8) false bytes).map fun (word, ending) => (b :: word, ending) := by
  simp only [startsWord, Bool.and_eq_true, Bool.not_eq_true', decide_eq_true_eq, ne_eq] at hb
  by_cases hdollar : b = '$'.toUInt8
  · subst hdollar
    simp [takeWord, toUInt8]
  · simp [takeWord, hb, hdollar]

theorem read_argument (hb : startsWord b = true)
    (h : takeWord false false (b :: bytes) = some (word, ch, rest)) :
    (atArgument args directives).read (b :: bytes) =
      afterWord (args ++ [unescapeWord word]) directives ch rest := by
  rw [takeWord_startsWord hb] at h
  obtain ⟨⟨word', ch', rest'⟩, htake, heq⟩ := Option.map_eq_some_iff.mp h
  cases heq
  rw [read_startsWord hb, read_inWord htake]
  rfl

/-- From one state to a later one the open directive has only grown, or it has been recorded with
all its arguments. -/
def Grows (s s' : ConfBlock) : Prop :=
  s'.directives = s.directives ∧ s.token.args <+: s'.token.args ∨
    ∃ args more, s'.directives = s.directives ++ args :: more ∧ s.token.args <+: args

variable {s s' : ConfBlock}

theorem grows_step (h : s.step b = .more s') : Grows s s' := by
  unfold step at h
  split at h
  · rename_i token hstep
    cases h
    exact .inl ⟨rfl, (args_step b).1 _ hstep⟩
  · rename_i args hstep
    cases h
    exact .inr ⟨args, [], rfl, (args_step b).2 _ hstep⟩
  · cases h

theorem Grows.trans {t u : ConfBlock} (h : Grows s t) (h' : Grows t u) : Grows s u := by
  rcases h with ⟨hd, hp⟩ | ⟨args, more, hd, hp⟩
  · rcases h' with ⟨hd', hp'⟩ | ⟨args', more', hd', hp'⟩
    · exact .inl ⟨hd'.trans hd, hp.trans hp'⟩
    · exact .inr ⟨args', more', by rw [hd', hd], hp.trans hp'⟩
  · right
    rcases h' with ⟨hd', -⟩ | ⟨args', more', hd', -⟩
    · exact ⟨args, more, hd'.trans hd, hp⟩
    · exact ⟨args, more ++ args' :: more', by rw [hd', hd]; simp, hp⟩

theorem grows_read (h : s.read bytes = .more s') : Grows s s' := by
  induction bytes generalizing s with
  | nil =>
    cases h
    exact .inl ⟨rfl, prefix_refl _⟩
  | cons b bytes ih =>
    obtain ⟨mid, hstep, hrest⟩ := Stepper.run_cons_more h
    exact (grows_step hstep).trans (ih hrest)

/-- Whatever follows a word, the directive recorded for it has the word as its next argument. -/
theorem prefix_of_afterWord {args' : List Bytes} {more : List (List Bytes)}
    (h : afterWord args directives ch bytes = .more s')
    (hdir : s'.directives = directives ++ args' :: more) : args <+: args' := by
  unfold afterWord at h
  split_ifs at h with hspace hsemi
  · rcases grows_read h with ⟨hd, -⟩ | ⟨args'', more', hd, hp⟩
    · rw [hdir] at hd
      simp [atArgument] at hd
    · rw [hdir] at hd
      have heq : args' :: more = args'' :: more' := append_cancel_left hd
      cases heq
      exact hp
  · rcases grows_read h with ⟨hd, -⟩ | ⟨args'', more', hd, -⟩
    · rw [hdir] at hd
      have heq : args' :: more = [args] := append_cancel_left hd
      cases heq
      exact prefix_refl _
    · rw [hdir] at hd
      simp only [between, atArgument, append_assoc, singleton_append] at hd
      have heq := append_cancel_left hd
      cases heq
      exact prefix_refl _

/-- A directive that has a next argument has read a word for it. -/
theorem exists_argument {x : Bytes} {xs : List Bytes} {more : List (List Bytes)}
    (hb : startsWord b = true) (h : (atArgument args directives).read (b :: bytes) = .more s')
    (hdir : s'.directives = directives ++ (args ++ x :: xs) :: more) :
    ∃ word ch rest, takeWord false false (b :: bytes) = some (word, ch, rest) ∧
      unescapeWord word = x ∧ afterWord (args ++ [x]) directives ch rest = .more s' := by
  cases htake : takeWord false false (b :: bytes) with
  | none =>
    rw [takeWord_startsWord hb] at htake
    rw [read_startsWord hb] at h
    obtain ⟨t, hread⟩ := read_inWord_none [b] args directives (Option.map_eq_none_iff.mp htake)
    rw [hread] at h
    cases h
    simp at hdir
  | some taken =>
    obtain ⟨word, ch, rest⟩ := taken
    rw [read_argument hb htake] at h
    have hprefix := prefix_of_afterWord h hdir
    rw [prefix_append_right_inj] at hprefix
    have hx : unescapeWord word = x := by simpa using hprefix
    exact ⟨word, ch, rest, rfl, hx, hx ▸ h⟩

/-! ### All arguments of a directive -/

def joinWords : List Bytes → Bytes
  | [] => []
  | [w] => w
  | w :: ws => w ++ ' '.toUInt8 :: joinWords ws

/-- A word of a directive: free of blanks and semicolons, and if there is more to it than white
space, it does not start with a quote, a brace, a comment or an escape. -/
structure IsWord (w : Bytes) : Prop where
  semicolon : ';'.toUInt8 ∉ w
  blank : ' '.toUInt8 ∉ w
  starts : ∀ b ∈ (w.dropWhile isConfSpace).head?, startsWord b = true

/-- The byte after the first word, and what is left after it. -/
theorem joinWords_cons (w : Bytes) (ws : List Bytes) (rest : Bytes) :
    ∃ d tail, joinWords (w :: ws) ++ ';'.toUInt8 :: rest = w ++ d :: tail ∧ endsWord d = true ∧
      (ws = [] ∧ d = ';'.toUInt8 ∧ tail = rest ∨
        ws ≠ [] ∧ d = ' '.toUInt8 ∧ tail = joinWords ws ++ ';'.toUInt8 :: rest) := by
  cases ws with
  | nil => exact ⟨_, _, rfl, rfl, .inl ⟨rfl, rfl, rfl⟩⟩
  | cons w' ws => exact ⟨_, _, by simp [joinWords], rfl, .inr ⟨by simp, rfl, rfl⟩⟩

variable {ws : List Bytes}

/-- What follows the leading white space of some words starts a word or ends the directive. -/
theorem startsWord_joinWords (rest : Bytes) (hws : ∀ w ∈ ws, IsWord w) :
    ∀ b ∈ ((joinWords ws ++ ';'.toUInt8 :: rest).dropWhile isConfSpace).head?,
      startsWord b = true ∨ b = ';'.toUInt8 := by
  have hsemi : ∀ bytes, ((';'.toUInt8 :: bytes).dropWhile isConfSpace).head? = some ';'.toUInt8 :=
    fun bytes => rfl
  induction ws with
  | nil =>
    intro b hb
    rw [joinWords, nil_append, hsemi] at hb
    exact .inr (by simpa using hb.symm)
  | cons w ws ih =>
    intro b hb
    obtain ⟨d, tail, heq, -, hd⟩ := joinWords_cons w ws rest
    rw [heq, dropWhile_append] at hb
    by_cases hall : (w.dropWhile isConfSpace).isEmpty = true
    · rw [if_pos hall] at hb
      rcases hd with ⟨-, rfl, -⟩ | ⟨-, rfl, rfl⟩
      · exact .inr (by simpa [hsemi] using hb.symm)
      · rw [dropWhile_cons_of_pos (by decide)] at hb
        exact ih (fun w hw => hws w (mem_cons_of_mem _ hw)) b hb
    · rw [if_neg hall] at hb
      cases hdrop : w.dropWhile isConfSpace with
      | nil => simp [hdrop] at hall
      | cons c cs =>
        rw [hdrop] at hb
        exact .inl ((hws w mem_cons_self).starts b (by simpa [hdrop] using hb))

/-- The next argument does not begin with white space, however the text goes on. -/
theorem head_of_read {x : Bytes} {xs : List Bytes} {more : List (List Bytes)} (hargs : args ≠ [])
    (hstarts : ∀ b ∈ (bytes.dropWhile isConfSpace).head?, startsWord b = true ∨ b = ';'.toUInt8)
    (h : (atArgument args directives).read bytes = .more s')
    (hdir : s'.directives = directives ++ (args ++ x :: xs) :: more) :
    ∃ b ∈ x.head?, isConfSpace b = false := by
  induction bytes with
  | nil =>
    cases h
    simp [atArgument] at hdir
  | cons b bytes ih =>
    cases hspace : isConfSpace b with
    | true =>
      rw [read_space hspace] at h
      rw [dropWhile_cons_of_pos hspace] at hstarts
      exact ih hstarts h
    | false =>
      have hb := hstarts b (by rw [dropWhile_cons_of_neg (by simp [hspace])]; rfl)
      rcases hb with hb | rfl
      · obtain ⟨word, ch, rest, htake, hx, -⟩ := exists_argument hb h hdir
        rw [takeWord_startsWord hb] at htake
        obtain ⟨⟨word', _, _⟩, -, heq⟩ := Option.map_eq_some_iff.mp htake
        cases heq
        have hback : b ≠ '\\'.toUInt8 := by
          rintro rfl
          exact absurd hb (by decide)
        rw [unescapeWord_cons word' hback] at hx
        exact ⟨b, by simp [← hx], hspace⟩
      · rw [read_semicolon hargs] at h
        rcases grows_read h with ⟨hd, -⟩ | ⟨_, _, hd, -⟩ <;> simp [hdir, between, atArgument] at hd

theorem startsWord_of_isWord {w : Bytes} (hw : IsWord (b :: w)) (hb : isConfSpace b = false) :
    startsWord b = true :=
  hw.starts b (by rw [dropWhile_cons_of_neg (by simp [hb])]; rfl)

theorem read_plainWord {w tail : Bytes} {d : UInt8} (hw : IsWord w) (hne : w ≠ [])
    (hplain : plainWord false w = true) (hd : endsWord d = true) :
    (atArgument args directives).read (w ++ d :: tail) =
      afterWord (args ++ [w]) directives d tail := by
  obtain ⟨htake, heq⟩ := (plainWord_iff tail hd hw.semicolon).mp hplain
  cases w with
  | nil => exact absurd rfl hne
  | cons b w =>
    have hb : isConfSpace b = false := by
      cases hspace : isConfSpace b with
      | false => rfl
      | true =>
        have hne : b ≠ '\\'.toUInt8 ∧ b ≠ '\x7b'.toUInt8 := by
          refine ⟨?_, ?_⟩ <;> (rintro rfl; exact absurd hspace (by decide))
        rw [plainWord_cons false w hne.1, if_neg hne.2, hspace] at hplain
        cases hplain
    rw [cons_append] at htake ⊢
    rw [read_argument (startsWord_of_isWord hw hb) htake, heq]

theorem read_words (hargs : args ≠ []) (hws : ∀ w ∈ ws, IsWord w)
    (hplain : ∀ w ∈ ws, plainWord false w = true) :
    (atArgument args directives).read (joinWords ws ++ ';'.toUInt8 :: rest) =
      (between (directives ++ [args ++ ws.filter (· ≠ [])])).read rest := by
  induction ws generalizing args with
  | nil => simpa [joinWords] using read_semicolon hargs
  | cons w ws ih =>
    have ih' := fun {args : List Bytes} (hargs : args ≠ []) => ih hargs
      (fun w hw => hws w (mem_cons_of_mem _ hw))
      (fun w hw => hplain w (mem_cons_of_mem _ hw))
    obtain ⟨d, tail, heq, hends, hd⟩ := joinWords_cons w ws rest
    rw [heq]
    by_cases hne : w = []
    · subst hne
      rcases hd with ⟨rfl, rfl, rfl⟩ | ⟨-, rfl, rfl⟩
      · simpa using read_semicolon hargs
      · rw [nil_append, read_space (by decide), ih' hargs]
        simp
    · rw [read_plainWord (hws w mem_cons_self) hne (hplain w mem_cons_self) hends]
      rcases hd with ⟨rfl, rfl, rfl⟩ | ⟨-, rfl, rfl⟩
      · simp [afterWord, hne, isConfSpace, toUInt8]
      · rw [afterWord, if_pos (by decide), ih' (by simp)]
        simp [hne]

/-- If the directive recorded has exactly the words as its arguments, they are all plain. -/
theorem plain_of_read_words (more : List (List Bytes))
    (hargs : args ≠ []) (hws : ∀ w ∈ ws, IsWord w)
    (h : (atArgument args directives).read (joinWords ws ++ ';'.toUInt8 :: rest) = .more s')
    (hdir : s'.directives = directives ++ (args ++ ws.filter (· ≠ [])) :: more) :
    ∀ w ∈ ws, plainWord false w = true := by
  induction ws generalizing args with
  | nil => simp
  | cons w ws ih =>
    have hws' : ∀ w ∈ ws, IsWord w := fun w hw => hws w (mem_cons_of_mem _ hw)
    have hw := hws w mem_cons_self
    obtain ⟨d, tail, heq, hends, hd⟩ := joinWords_cons w ws rest
    have hstarts := startsWord_joinWords rest hws
    rw [heq] at h hstarts
    have hnot : d ∉ w := by
      rcases hd with ⟨-, rfl, -⟩ | ⟨-, rfl, -⟩
      · exact hw.semicolon
      · exact hw.blank
    cases w with
    | nil =>
      refine forall_mem_cons.mpr ⟨rfl, ?_⟩
      rcases hd with ⟨rfl, rfl, rfl⟩ | ⟨-, rfl, rfl⟩
      · simp
      · rw [nil_append, read_space (by decide)] at h
        exact ih hargs hws' h (by simpa using hdir)
    | cons b w =>
      have hdir' : s'.directives =
          directives ++ (args ++ (b :: w) :: ws.filter (· ≠ [])) :: more := by
        simpa using hdir
      have hspace : isConfSpace b = false := by
        obtain ⟨c, hc, hspace⟩ := head_of_read hargs hstarts h hdir'
        simp only [head?_cons, Option.mem_some_iff] at hc
        rw [hc, hspace]
      have hb := startsWord_of_isWord hw hspace
      rw [cons_append] at h
      obtain ⟨word, ch, after, htake, hx, hnext⟩ := exists_argument hb h hdir'
      obtain ⟨rfl, rfl, rfl⟩ := eq_of_unescapeWord_eq hends hnot htake hx
      refine forall_mem_cons.mpr ⟨?_, ?_⟩
      · exact (plainWord_iff after hends hw.semicolon).mpr ⟨htake, hx⟩
      · rcases hd with ⟨rfl, rfl, rfl⟩ | ⟨-, rfl, rfl⟩
        · simp
        · rw [afterWord, if_pos (by decide)] at hnext
          exact ih (by simp) hws' hnext (by simpa using hdir')

def directiveText (name : Bytes) (ws : List Bytes) : Bytes :=
  name ++ ' '.toUInt8 :: joinWords ws ++ [';'.toUInt8]

/-- Directives of one name are read as they were written exactly if all their words are plain. -/
theorem read_directives_iff {name : Bytes} {wss : List (List Bytes)} (hname : IsWord name)
    (hne : name ≠ []) (hplain : plainWord false name = true)
    (hwss : ∀ ws ∈ wss, ∀ w ∈ ws, IsWord w) :
    (between directives).read (wss.flatMap (directiveText name)) =
        .more (between (directives ++ wss.map fun ws => name :: ws.filter (· ≠ []))) ↔
      ∀ ws ∈ wss, ∀ w ∈ ws, plainWord false w = true := by
  induction wss generalizing directives with
  | nil => simp [read]
  | cons ws wss ih =>
    have hws := hwss ws mem_cons_self
    have htext : (ws :: wss).flatMap (directiveText name) =
        name ++ ' '.toUInt8 ::
          (joinWords ws ++ ';'.toUInt8 :: wss.flatMap (directiveText name)) := by
      simp [directiveText]
    have hstart : (between directives).read ((ws :: wss).flatMap (directiveText name)) =
        (atArgument [name] directives).read
          (joinWords ws ++ ';'.toUInt8 :: wss.flatMap (directiveText name)) := by
      rw [htext, between, read_plainWord hname hne hplain (by decide), afterWord,
        if_pos (by decide)]
      rfl
    have ih' := fun directives => @ih directives
      fun ws hws => hwss ws (mem_cons_of_mem _ hws)
    rw [hstart, forall_mem_cons]
    constructor
    · intro h
      have hwords := plain_of_read_words (wss.map fun ws => name :: ws.filter (· ≠ []))
        (by simp) hws h (by simp [between, atArgument])
      rw [read_words (by simp) hws hwords] at h
      exact ⟨hwords, (ih' (directives ++ [name :: ws.filter (· ≠ [])])).mp (by simpa using h)⟩
    · rintro ⟨hwords, hrest⟩
      rw [read_words (by simp) hws hwords, (ih' _).mpr hrest]
      simp

end ConfBlock

end IngressController.Nginx
