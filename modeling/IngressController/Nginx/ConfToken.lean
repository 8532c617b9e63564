import IngressController.Library.Utf8

/-! # The NGINX configuration tokenizer

One byte of `ngx_conf_read_token` at a time. The flags are those of the C
function (`inVariable` is its `variable`); `word` holds the bytes from `start` up to the current
position and `args` the arguments read so far, the directive name first.
-/

namespace IngressController.Nginx

open Utf8 (Bytes)
open Stepper (Verdict)

structure ConfToken where
  needSpace : Bool := false
  lastSpace : Bool := true
  sharpComment : Bool := false
  inVariable : Bool := false
  quoted : Bool := false
  sQuoted : Bool := false
  dQuoted : Bool := false
  word : Bytes := []
  args : List Bytes := []
deriving DecidableEq

/-- Return values of the tokenizer: the directive ended, a block was opened or
closed, or the byte is not allowed here. -/
inductive ConfEnd where
  | ok (args : List Bytes)
  | blockStart (args : List Bytes)
  | blockDone
  | unexpected (ch : UInt8)
deriving DecidableEq

def isConfSpace (ch : UInt8) : Bool :=
  ch = ' '.toUInt8 || ch = '\t'.toUInt8 || ch = '\r'.toUInt8 || ch = '\n'.toUInt8

/-- The copy loop that turns the raw bytes of a token into the argument. -/
def unescapeWord : Bytes → Bytes
  | [] => []
  | [b] => [b]
  | b :: c :: rest =>
    if b = '\\'.toUInt8 then
      if c = '"'.toUInt8 || c = '\''.toUInt8 || c = '\\'.toUInt8 then c :: unescapeWord rest
      else if c = 't'.toUInt8 then '\t'.toUInt8 :: unescapeWord rest
      else if c = 'r'.toUInt8 then '\r'.toUInt8 :: unescapeWord rest
      else if c = 'n'.toUInt8 then '\n'.toUInt8 :: unescapeWord rest
      else b :: unescapeWord (c :: rest)
    else b :: unescapeWord (c :: rest)

namespace ConfToken

variable (s : ConfToken)

def found : ConfToken :=
  { s with args := s.args ++ [unescapeWord s.word], word := [] }

variable (ch : UInt8)

/-- The `last_space` branch: a byte where a token may start. -/
def atStart : Verdict ConfToken ConfEnd :=
  if isConfSpace ch then .more s
  else if ch = ';'.toUInt8 then
    if s.args = [] then .stop (.unexpected ch) else .stop (.ok s.args)
  else if ch = '\x7b'.toUInt8 then
    if s.args = [] then .stop (.unexpected ch) else .stop (.blockStart s.args)
  else if ch = '\x7d'.toUInt8 then
    if s.args = [] then .stop .blockDone else .stop (.unexpected ch)
  else if ch = '#'.toUInt8 then .more { s with sharpComment := true }
  else if ch = '\\'.toUInt8 then
    .more { s with quoted := true, lastSpace := false, word := [ch] }
  else if ch = '"'.toUInt8 then .more { s with dQuoted := true, lastSpace := false, word := [] }
  else if ch = '\''.toUInt8 then .more { s with sQuoted := true, lastSpace := false, word := [] }
  else if ch = '$'.toUInt8 then
    .more { s with inVariable := true, lastSpace := false, word := [ch] }
  else .more { s with lastSpace := false, word := [ch] }

/-- The branch that reads on inside a token. -/
def inToken : Verdict ConfToken ConfEnd :=
  if ch = '\x7b'.toUInt8 && s.inVariable then .more { s with word := s.word ++ [ch] }
  else
    let s := { s with inVariable := false }
    if ch = '\\'.toUInt8 then .more { s with quoted := true, word := s.word ++ [ch] }
    else if ch = '$'.toUInt8 then .more { s with inVariable := true, word := s.word ++ [ch] }
    else if s.dQuoted then
      if ch = '"'.toUInt8 then .more { s.found with dQuoted := false, needSpace := true }
      else .more { s with word := s.word ++ [ch] }
    else if s.sQuoted then
      if ch = '\''.toUInt8 then .more { s.found with sQuoted := false, needSpace := true }
      else .more { s with word := s.word ++ [ch] }
    else if isConfSpace ch then .more { s.found with lastSpace := true }
    else if ch = ';'.toUInt8 then .stop (.ok s.found.args)
    else if ch = '\x7b'.toUInt8 then .stop (.blockStart s.found.args)
    else .more { s with word := s.word ++ [ch] }

/-- One iteration of the loop, from the byte read to the next `continue` or `return`. -/
def step : Verdict ConfToken ConfEnd :=
  if s.sharpComment && ch ≠ '\n'.toUInt8 then .more s
  else
    -- a line feed ends a comment and is then read like any other byte
    let s := { s with sharpComment := false }
    if s.quoted then .more { s with quoted := false, word := s.word ++ [ch] }
    else if s.needSpace then
      if isConfSpace ch then .more { s with lastSpace := true, needSpace := false }
      else if ch = ';'.toUInt8 then .stop (.ok s.args)
      else if ch = '\x7b'.toUInt8 then .stop (.blockStart s.args)
      else if ch = ')'.toUInt8 then { s with lastSpace := true, needSpace := false }.atStart ch
      else .stop (.unexpected ch)
    else if s.lastSpace then s.atStart ch
    else s.inToken ch

variable {s : ConfToken} {ch : UInt8}

theorem step_needSpace (hc : s.sharpComment = false)
    (hq : s.quoted = false) (hn : s.needSpace = true) (hch : isConfSpace ch = true) :
    s.step ch = .more { s with lastSpace := true, needSpace := false } := by
  cases s
  simp_all [step]

theorem step_atStart (ch : UInt8) (hc : s.sharpComment = false)
    (hq : s.quoted = false) (hn : s.needSpace = false) (hl : s.lastSpace = true) :
    s.step ch = s.atStart ch := by
  cases s
  simp_all [step]

theorem step_inToken (ch : UInt8) (hc : s.sharpComment = false)
    (hq : s.quoted = false) (hn : s.needSpace = false) (hl : s.lastSpace = false) :
    s.step ch = s.inToken ch := by
  cases s
  simp_all [step]

theorem inToken_backslash (s : ConfToken) :
    s.inToken '\\'.toUInt8 =
      .more { s with inVariable := false, quoted := true, word := s.word ++ ['\\'.toUInt8] } := by
  simp [inToken, Char.toUInt8]

theorem inToken_closes (h : s.dQuoted = true ∧ s.sQuoted = false ∧ ch = '"'.toUInt8 ∨
      s.dQuoted = false ∧ s.sQuoted = true ∧ ch = '\''.toUInt8) :
    s.inToken ch = .more { s.found with
      inVariable := false, dQuoted := false, sQuoted := false, needSpace := true } := by
  rcases h with ⟨hd, hs, rfl⟩ | ⟨hd, hs, rfl⟩ <;> simp [inToken, found, Char.toUInt8, hd, hs]

/-- A byte that neither escapes, nor closes the open quote, nor ends an unquoted
token is copied into the word. -/
theorem inToken_copies (hb : ch ≠ '\\'.toUInt8)
    (hd : s.dQuoted = true → ch ≠ '"'.toUInt8) (hs : s.sQuoted = true → ch ≠ '\''.toUInt8)
    (hout : s.dQuoted = false → s.sQuoted = false →
      isConfSpace ch = false ∧ ch ≠ ';'.toUInt8 ∧ ch ≠ '\x7b'.toUInt8) :
    ∃ v, s.inToken ch = .more { s with inVariable := v, word := s.word ++ [ch] } := by
  unfold inToken
  by_cases hbrace : (ch = '\x7b'.toUInt8 && s.inVariable) = true
  · exact ⟨s.inVariable, by rw [if_pos hbrace]⟩
  rw [if_neg hbrace, if_neg hb]
  by_cases hdollar : ch = '$'.toUInt8
  · exact ⟨true, by rw [if_pos hdollar]⟩
  refine ⟨false, ?_⟩
  rw [if_neg hdollar]
  cases hdq : s.dQuoted with
  | true => simp [hd hdq]
  | false =>
    cases hsq : s.sQuoted with
    | true => simp [hs hsq]
    | false =>
      obtain ⟨hspace, hsemi, hopen⟩ := hout hdq hsq
      simp [hspace, hsemi, hopen]

theorem inToken_space (hd : s.dQuoted = false)
    (hs : s.sQuoted = false) (hch : isConfSpace ch = true) :
    s.inToken ch = .more { s.found with inVariable := false, lastSpace := true } := by
  have hne : ch ≠ '\x7b'.toUInt8 ∧ ch ≠ '\\'.toUInt8 ∧ ch ≠ '$'.toUInt8 := by
    refine ⟨?_, ?_, ?_⟩ <;> (rintro rfl; exact absurd hch (by decide))
  simp [inToken, found, hne, hd, hs, hch]

def afterName (name : Bytes) : ConfToken := { args := [name] }

def read (s : ConfToken) (bytes : Bytes) : Verdict ConfToken (ConfEnd × Bytes) :=
  Stepper.run step s bytes

end ConfToken

end IngressController.Nginx
