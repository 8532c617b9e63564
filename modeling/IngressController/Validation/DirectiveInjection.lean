import Mathlib.Data.List.TakeWhile
import IngressController.Nginx.ConfToken
import IngressController.Validation.Directive

/-! # Accepted directive values stay inside their directive

The scanner of `validateDirectiveValue` runs over the masked runes of a value, the
NGINX tokenizer over its bytes. `Tracks` relates their states after the same
bytes of the value; every step the scanner accepts keeps them related, and so
does a whole braced variable, which the scanner sees as its mask.
-/

namespace IngressController.Validation

open List DirectiveScanner Nginx.ConfToken
open Char (toUInt8)
open Utf8 (Bytes runes)
open Stepper (Verdict run Stays)
open Nginx (ConfToken isConfSpace)

/-! ## The simulation relation -/

/-- The scanner and the tokenizer agree on what the next byte means. -/
structure Tracks (s : DirectiveScanner) (t : ConfToken) : Prop where
  comment : t.sharpComment = false
  quoted : t.quoted = s.escaped
  needSpace : t.needSpace = s.needSpace
  lastSpace : t.lastSpace = s.tokenBoundary
  dQuoted : t.dQuoted = decide (s.quote = 34)
  sQuoted : t.sQuoted = decide (s.quote = 39)
  quote : s.quote = 0 ∨ s.quote = 34 ∨ s.quote = 39
  insideQuote : s.quote ≠ 0 → s.tokenBoundary = false ∧ s.needSpace = false
  escaped : s.escaped = true → s.tokenBoundary = false ∧ s.needSpace = false

theorem byte_eq_iff (b : UInt8) (n : Nat) (h : n < 256) : b.toNat = n ↔ b = UInt8.ofNat n := by
  constructor
  · intro hb
    subst hb
    simp
  · intro hb
    subst hb
    simp [Nat.mod_eq_of_lt h]

theorem isNginxSpace_byte (b : UInt8) : isNginxSpace b.toNat = isConfSpace b := by
  simp [isNginxSpace, isConfSpace, byte_eq_iff, toUInt8]

/-- The arguments the directive has if a semicolon is read now. -/
def argsIfEnded (t : ConfToken) : List Bytes :=
  if t.needSpace || t.lastSpace then t.args else t.found.args

/-- What reading some bytes of one directive does to its arguments. -/
structure Reads (bytes : Bytes) (t t' : ConfToken) : Prop where
  empty : bytes = [] → t' = t
  args : t.args <+: t'.args
  mono : (argsIfEnded t).length ≤ (argsIfEnded t').length
  token : bytes ≠ [] → (∀ b ∈ bytes, isConfSpace b = false) →
    t'.lastSpace = false ∧
      (argsIfEnded t').length = (argsIfEnded t).length + t.lastSpace.toNat
  blank : t.lastSpace = true → (∀ b ∈ bytes, isConfSpace b = true) → t'.lastSpace = true
  starts : t.lastSpace = true → (∃ b ∈ bytes, isConfSpace b = false) →
    (argsIfEnded t).length < (argsIfEnded t').length

theorem Reads.nil (t : ConfToken) : Reads [] t t where
  empty _ := rfl
  args := prefix_refl _
  mono := le_refl _
  token h := absurd rfl h
  blank h _ := h
  starts _ h := by simp at h

variable {t u : ConfToken}

theorem Reads.append {xs ys : Bytes} {v : ConfToken} (hx : Reads xs t u) (hy : Reads ys u v) :
    Reads (xs ++ ys) t v where
  empty h := by
    rw [append_eq_nil_iff] at h
    rw [hy.empty h.2, hx.empty h.1]
  args := hx.args.trans hy.args
  mono := hx.mono.trans hy.mono
  token hne hall := by
    have hxs : ∀ b ∈ xs, isConfSpace b = false := fun b hb => hall b (mem_append_left _ hb)
    have hys : ∀ b ∈ ys, isConfSpace b = false := fun b hb => hall b (mem_append_right _ hb)
    by_cases hx0 : xs = []
    · have hu := hx.empty hx0
      subst hu hx0
      exact hy.token (by simpa using hne) hys
    obtain ⟨hlast, hcount⟩ := hx.token hx0 hxs
    by_cases hy0 : ys = []
    · rw [hy.empty hy0]
      exact ⟨hlast, hcount⟩
    · obtain ⟨hlast', hcount'⟩ := hy.token hy0 hys
      exact ⟨hlast', by rw [hcount', hcount, hlast]; rfl⟩
  blank hl hall :=
    hy.blank (hx.blank hl fun b hb => hall b (mem_append_left _ hb))
      fun b hb => hall b (mem_append_right _ hb)
  starts hl hex := by
    by_cases hxs : ∃ b ∈ xs, isConfSpace b = false
    · exact lt_of_lt_of_le (hx.starts hl hxs) hy.mono
    have hblank : ∀ b ∈ xs, isConfSpace b = true := by
      simpa using hxs
    have hys : ∃ b ∈ ys, isConfSpace b = false := by
      obtain ⟨b, hb, hf⟩ := hex
      rcases mem_append.mp hb with hb | hb
      · exact absurd ⟨b, hb, hf⟩ hxs
      · exact ⟨b, hb, hf⟩
    exact lt_of_le_of_lt hx.mono (hy.starts (hx.blank hl hblank) hys)

theorem length_argsIfEnded (t : ConfToken) :
    (argsIfEnded t).length = t.args.length + (!(t.needSpace || t.lastSpace)).toNat := by
  unfold argsIfEnded
  cases t.needSpace <;> cases t.lastSpace <;> simp [found]

attribute [local simp] length_argsIfEnded

variable {b : UInt8} {s s' : DirectiveScanner} (h : Tracks s t)
include h

theorem Tracks.step_escaped (he : s.escaped = true)
    (hs : s' = { s with escaped := false, tokenBoundary := false }) :
    ∃ t', t.step b = .more t' ∧ Tracks s' t' ∧ Reads [b] t t' := by
  subst hs
  obtain ⟨hc, hq, hns, hls, hd, hsq, hquote, hin, hesc⟩ := h
  refine ⟨{ t with quoted := false, word := t.word ++ [b] }, ?_, ?_, ?_⟩
  · simp [ConfToken.step, hc, hq, he]
  all_goals constructor <;> simp_all

variable (he : s.escaped = false)
include he

theorem Tracks.step_insideQuote (hquote : s.quote ≠ 0) (hs' : s' = s.insideQuote b.toNat) :
    ∃ t', t.step b = .more t' ∧ Tracks s' t' ∧ Reads [b] t t' := by
  obtain ⟨hc, hq, hns, hls, hd, hsq, hkind, hin, hesc⟩ := h
  obtain ⟨hb, hneed⟩ := hin hquote
  have hlast : t.lastSpace = false := by rw [hls, hb]
  have hspace : t.needSpace = false := by rw [hns, hneed]
  rw [step_inToken b hc (by rw [hq, he]) hspace hlast]
  by_cases hback : b = '\\'.toUInt8
  · have hs : s' = { s with escaped := true } := by
      simp [hs', hback, DirectiveScanner.insideQuote, toUInt8]
    subst hs hback
    refine ⟨_, inToken_backslash t, ?_, ?_⟩
    all_goals constructor <;> simp_all
  have hback' : b.toNat ≠ 92 := by
    simpa [byte_eq_iff, toUInt8] using hback
  by_cases hclose : b.toNat = s.quote
  · have hs : s' = { s with quote := 0, needSpace := true } := by
      simp [hs', DirectiveScanner.insideQuote, hback', ← hclose]
    have hopen : t.dQuoted = true ∧ t.sQuoted = false ∧ b = '"'.toUInt8 ∨
        t.dQuoted = false ∧ t.sQuoted = true ∧ b = '\''.toUInt8 := by
      rcases hkind with hkind | hkind | hkind
      · exact absurd hkind hquote
      · left
        simp_all [byte_eq_iff, toUInt8]
      · right
        simp_all [byte_eq_iff, toUInt8]
    subst hs
    refine ⟨_, inToken_closes hopen, ?_, ?_⟩
    all_goals constructor <;> simp_all [found]
  · have hs : s' = s := by
      simp [hs', DirectiveScanner.insideQuote, hback', hclose]
    clear hs'
    obtain ⟨v, hv⟩ := inToken_copies (s := t) hback
      (by rintro hdq rfl; simp_all [toUInt8]) (by rintro hsq' rfl; simp_all [toUInt8])
      (by intro hdq hsq'; simp_all)
    subst hs
    refine ⟨_, hv, ?_, ?_⟩
    all_goals constructor <;> simp_all

theorem Tracks.step_needSpace (hquote : s.quote = 0) (hneed : s.needSpace = true)
    (hn : s.outsideQuote b.toNat = .more s') :
    ∃ t', t.step b = .more t' ∧ Tracks s' t' ∧ Reads [b] t t' := by
  rw [outsideQuote, if_pos hneed, isNginxSpace_byte] at hn
  cases hspace : isConfSpace b with
  | false => simp [hspace] at hn
  | true =>
    have hs : s' = { s with needSpace := false, tokenBoundary := true } := by
      simpa [hspace] using hn.symm
    subst hs
    clear hn
    obtain ⟨hc, hq, hns, hls, hd, hsq, hkind, hin, hesc⟩ := h
    refine ⟨_, ConfToken.step_needSpace hc (by rw [hq, he]) (by rw [hns, hneed]) hspace, ?_, ?_⟩
    all_goals constructor <;> simp_all

/-- What an unquoted byte that is neither white space nor a delimiter does to the scanner. -/
def DirectiveScanner.afterUnquoted (s : DirectiveScanner) (b : UInt8) : DirectiveScanner :=
  if b = '\\'.toUInt8 then { s with escaped := true, tokenBoundary := false }
  else if b = '\''.toUInt8 ∨ b = '"'.toUInt8 then
    { s with quote := if s.tokenBoundary then b.toNat else s.quote, tokenBoundary := false }
  else { s with tokenBoundary := false }

omit he in
omit h in
theorem DirectiveScanner.outsideQuote_cases (hneed : s.needSpace = false)
    (hn : s.outsideQuote b.toNat = .more s') :
    isConfSpace b = true ∧ s' = { s with tokenBoundary := true } ∨
      isConfSpace b = false ∧ b ≠ '#'.toUInt8 ∧ b ≠ ';'.toUInt8 ∧ b ≠ '\x7b'.toUInt8 ∧
        b ≠ '\x7d'.toUInt8 ∧ s' = s.afterUnquoted b := by
  rw [outsideQuote, if_neg (by simp [hneed]), isNginxSpace_byte] at hn
  cases hspace : isConfSpace b with
  | true =>
    left
    simpa [hspace] using hn.symm
  | false =>
    right
    refine ⟨rfl, ?_⟩
    simp only [hspace, Char.reduceToNat, byte_eq_iff, Nat.reduceLT] at hn
    unfold afterUnquoted
    by_cases hback : b = 92
    · simp_all [toUInt8]
    by_cases hquote : b = 39 ∨ b = 34
    · have hne : b ≠ 35 ∧ b ≠ 59 ∧ b ≠ 123 ∧ b ≠ 125 := by
        rcases hquote with rfl | rfl <;> decide
      simp_all [toUInt8]
    · by_cases hdelim : ((b = 35 ∨ b = 59) ∨ b = 123) ∨ b = 125
      · simp_all
      · simp_all [toUInt8]

theorem Tracks.step_space (hquote : s.quote = 0) (hneed : s.needSpace = false)
    (hspace : isConfSpace b = true) :
    ∃ t', t.step b = .more t' ∧ Tracks { s with tokenBoundary := true } t' ∧ Reads [b] t t' := by
  obtain ⟨hc, hq, hns, hls, hd, hsq, hkind, hin, hesc⟩ := h
  rw [he] at hq
  rw [hneed] at hns
  cases hl : t.lastSpace with
  | true =>
    refine ⟨t, ?_, ?_, ?_⟩
    · rw [step_atStart b hc hq hns hl, atStart, if_pos hspace]
    all_goals constructor <;> simp_all
  | false =>
    rw [step_inToken b hc hq hns hl,
      inToken_space (by simp [hd, hquote]) (by simp [hsq, hquote]) hspace]
    refine ⟨_, rfl, ?_, ?_⟩
    all_goals constructor <;> simp_all [found]

theorem Tracks.step_unquoted (hquote : s.quote = 0) (hneed : s.needSpace = false)
    (hspace : isConfSpace b = false) (hsharp : b ≠ '#'.toUInt8) (hsemi : b ≠ ';'.toUInt8)
    (hopen : b ≠ '\x7b'.toUInt8) (hclose : b ≠ '\x7d'.toUInt8) :
    ∃ t', t.step b = .more t' ∧ Tracks (s.afterUnquoted b) t' ∧ Reads [b] t t' := by
  obtain ⟨hc, hq, hns, hls, hd, hsq, hkind, hin, hesc⟩ := h
  rw [he] at hq
  rw [hneed] at hns
  unfold afterUnquoted
  cases hl : t.lastSpace with
  | true =>
    rw [step_atStart b hc hq hns hl, atStart, if_neg (by simp [hspace]),
      if_neg hsemi, if_neg hopen, if_neg hclose, if_neg hsharp]
    by_cases hback : b = '\\'.toUInt8
    · rw [if_pos hback, if_pos hback]
      refine ⟨_, rfl, ?_, ?_⟩
      all_goals constructor <;> simp_all
    rw [if_neg hback, if_neg hback]
    by_cases hdouble : b = '"'.toUInt8
    · rw [if_pos hdouble, if_pos (.inr hdouble)]
      refine ⟨_, rfl, ?_, ?_⟩
      all_goals constructor <;> simp_all [toUInt8]
    rw [if_neg hdouble]
    by_cases hsingle : b = '\''.toUInt8
    · rw [if_pos hsingle, if_pos (.inl hsingle)]
      refine ⟨_, rfl, ?_, ?_⟩
      all_goals constructor <;> simp_all [toUInt8]
    rw [if_neg hsingle, if_neg (not_or.mpr ⟨hsingle, hdouble⟩)]
    by_cases hdollar : b = '$'.toUInt8
    · rw [if_pos hdollar]
      refine ⟨_, rfl, ?_, ?_⟩
      all_goals constructor <;> simp_all
    · rw [if_neg hdollar]
      refine ⟨_, rfl, ?_, ?_⟩
      all_goals constructor <;> simp_all
  | false =>
    rw [step_inToken b hc hq hns hl]
    by_cases hback : b = '\\'.toUInt8
    · subst hback
      rw [inToken_backslash t, if_pos rfl]
      refine ⟨_, rfl, ?_, ?_⟩
      all_goals constructor <;> simp_all
    · obtain ⟨v, hv⟩ := inToken_copies (s := t) hback (by simp [hd, hquote])
        (by simp [hsq, hquote]) (fun _ _ => ⟨hspace, hsemi, hopen⟩)
      rw [hv, if_neg hback]
      refine ⟨_, rfl, ?_, ?_⟩
      · have hb : s.tokenBoundary = false := by rw [← hls, hl]
        constructor <;> simp_all
      · constructor <;> simp_all

omit he

/-- Every byte the scanner accepts keeps the two automata together. -/
theorem Tracks.step (hn : s.next b.toNat = .more s') :
    ∃ t', t.step b = .more t' ∧ Tracks s' t' ∧ Reads [b] t t' := by
  rcases next_cases hn with
    ⟨he, hs⟩ | ⟨he, hquote, hs⟩ | ⟨he, hquote, hout⟩
  · exact h.step_escaped he hs
  · exact h.step_insideQuote he hquote hs
  cases hneed : s.needSpace with
  | true => exact h.step_needSpace he hquote hneed hout
  | false =>
    rcases outsideQuote_cases hneed hout with
      ⟨hspace, rfl⟩ | ⟨hspace, hsharp, hsemi, hopen, hclose, rfl⟩
    · exact h.step_space he hquote hneed hspace
    · exact h.step_unquoted he hquote hneed hspace hsharp hsemi hopen hclose

omit h

/-! ## Escapes before a braced variable -/

theorem isEscaped_cons (b : UInt8) (before : Bytes) :
    isEscaped (b :: before) = (decide (b = '\\'.toUInt8) && !isEscaped before) := by
  by_cases hb : b = '\\'.toUInt8
  · simp only [isEscaped, hb, takeWhile_cons, decide_true, if_true, length_cons, Bool.true_and]
    rcases Nat.mod_two_eq_zero_or_one
      (before.takeWhile (fun b => decide (b = '\\'.toUInt8))).length with h | h <;>
      simp [Nat.add_mod, h]
  · simp [isEscaped, hb]

theorem outsideQuote_escaped (he : s.escaped = false) (hn : s.outsideQuote b.toNat = .more s') :
    s'.escaped = decide (b = '\\'.toUInt8) := by
  have hspace : isConfSpace b = true → b ≠ '\\'.toUInt8 := by
    rintro h rfl
    exact absurd h (by decide)
  cases hneed : s.needSpace with
  | true =>
    rw [outsideQuote, if_pos hneed, isNginxSpace_byte] at hn
    cases hb : isConfSpace b with
    | false => simp [hb] at hn
    | true =>
      rw [hb] at hn
      cases hn
      simp [he, hspace hb]
  | false =>
    rcases outsideQuote_cases hneed hn with ⟨hb, rfl⟩ | ⟨-, -, -, -, -, rfl⟩
    · simp [he, hspace hb]
    · unfold afterUnquoted
      split_ifs <;> simp_all

variable {before : Bytes}

/-- An escape is open exactly after an odd run of backslashes. -/
theorem next_escaped (h : s.escaped = isEscaped before) (hn : s.next b.toNat = .more s') :
    s'.escaped = isEscaped (b :: before) := by
  rw [isEscaped_cons, ← h]
  rcases next_cases hn with ⟨he, rfl⟩ | ⟨he, -, rfl⟩ | ⟨he, -, hout⟩
  · simp [he]
  · have hiff : b.toNat = '\\'.toNat ↔ b = '\\'.toUInt8 := by
      simp [byte_eq_iff, toUInt8]
    by_cases hb : b = '\\'.toUInt8
    · rw [DirectiveScanner.insideQuote, if_pos (hiff.mpr hb)]
      simp [hb, he]
    · rw [DirectiveScanner.insideQuote, if_neg (mt hiff.mp hb)]
      split <;> simp [hb, he]
  · simpa [he] using outsideQuote_escaped he hout

/-! ## Runes and bytes -/

theorem next_wide {c : Nat} (hs : s.quote < 0x80) (hc : 0x80 ≤ c) : s.next c =
      if s.escaped then .more { s with escaped := false, tokenBoundary := false }
      else if s.quote ≠ 0 then .more s
      else if s.needSpace then .stop "quoted NGINX argument must be followed by whitespace"
      else .more { s with tokenBoundary := false } := by
  have hspecial : ∀ n, n < 0x80 → c ≠ n := fun n hn => by omega
  have hspace : isNginxSpace c = false := by
    simp [isNginxSpace, hspecial]
  have hquote : c ≠ s.quote := by omega
  simp [DirectiveScanner.next, DirectiveScanner.insideQuote, outsideQuote, hspace, hquote, hspecial]

/-- A closed quote waits for white space only outside quotes and escapes. -/
structure DirectiveScanner.Wf (s : DirectiveScanner) : Prop where
  quote_lt : s.quote < 0x80
  quote : s.quote ≠ 0 → s.needSpace = false
  escaped : s.escaped = true → s.needSpace = false

theorem next_wf {c : Nat} (hs : s.Wf) (hn : s.next c = .more s') : s'.Wf := by
  obtain ⟨hlt, hq, he⟩ := hs
  rcases next_cases hn with ⟨h1, rfl⟩ | ⟨h1, h2, rfl⟩ | ⟨h1, h2, hout⟩
  · exact ⟨hlt, hq, by simp⟩
  · unfold DirectiveScanner.insideQuote
    split_ifs
    · exact ⟨hlt, hq, fun _ => hq h2⟩
    · exact ⟨by simp, by simp, by simp [h1]⟩
    · exact ⟨hlt, hq, he⟩
  · unfold outsideQuote at hout
    split_ifs at hout with hneed <;> cases hout <;> constructor <;> simp_all <;> omega

theorem next_asciiReader : Utf8.AsciiReader next DirectiveScanner.Wf where
  preserved := next_wf
  alike hs hc hd h := by rwa [next_wide hs.quote_lt hd, ← next_wide hs.quote_lt hc]
  idem hs hc hd h := by
    rw [next_wide (next_wf hs h).quote_lt hd]
    rw [next_wide hs.quote_lt hc] at h
    have he := hs.escaped
    split_ifs at h <;> cases h <;> simp_all

variable {bytes : Bytes}

theorem bracedNginxVariableEnd_some {braced after : Bytes}
    (h : bracedNginxVariableEnd before bytes = some (braced, after)) :
    isEscaped before = false ∧ bytes = braced ++ after ∧
      ∃ name, braced = '$'.toUInt8 :: '\x7b'.toUInt8 :: name ++ ['\x7d'.toUInt8] ∧
        ∀ b ∈ name, isNginxVariableChar b = true := by
  unfold bracedNginxVariableEnd at h
  split at h
  · rename_i dollar brace first rest
    split at h
    · cases h
    rename_i hcond
    split at h
    · rename_i close tail hdrop
      split at h
      · cases h
      rename_i hclose
      simp at hcond hclose
      obtain ⟨⟨⟨hd, hb⟩, hesc⟩, hfirst⟩ := hcond
      cases h
      refine ⟨hesc, ?_, first :: rest.takeWhile isNginxVariableChar, ?_, ?_⟩
      · have hsplit := takeWhile_append_dropWhile (p := isNginxVariableChar) (l := rest)
        rw [hdrop] at hsplit
        simpa using hsplit.symm
      · simp [hd, hb, hclose]
      · intro b hb
        rcases mem_cons.mp hb with rfl | hb
        · simp [isNginxVariableChar, hfirst]
        · exact mem_takeWhile_imp hb
    · cases h
  · cases h

theorem variable_byte_cases (hb : b = '$'.toUInt8 ∨ isNginxVariableChar b = true) :
    b.toNat = 36 ∨ 48 ≤ b.toNat ∧ b.toNat ≤ 57 ∨ 65 ≤ b.toNat ∧ b.toNat ≤ 90 ∨
      b.toNat = 95 ∨ 97 ≤ b.toNat ∧ b.toNat ≤ 122 := by
  simp only [isNginxVariableChar, isNginxVariableStart, toUInt8, ← UInt8.toNat_inj,
    UInt8.le_iff_toNat_le, Bool.or_eq_true, Bool.and_eq_true, decide_eq_true_eq] at hb
  simp at hb
  omega

/-- A byte of a variable reference only clears the token boundary. -/
theorem next_variable_byte (hkind : s.quote = 0 ∨ s.quote = 34 ∨ s.quote = 39)
    (hin : s.quote ≠ 0 → s.tokenBoundary = false) (he : s.escaped = false)
    (hneed : s.needSpace = false) (hb : b = '$'.toUInt8 ∨ isNginxVariableChar b = true) :
    s.next b.toNat = .more { s with tokenBoundary := false } := by
  have hcases := variable_byte_cases hb
  have hplain : ∀ n ∈ [9, 10, 13, 32, 34, 35, 39, 59, 92, 96, 123, 125], b.toNat ≠ n := by
    simp only [mem_cons, not_mem_nil, or_false]
    omega
  simp only [mem_cons, not_mem_nil, or_false, forall_eq_or_imp, forall_eq] at hplain
  have hspace : isNginxSpace b.toNat = false := by
    simp [isNginxSpace, hplain]
  rcases hkind with hq | hq | hq
  · simp [DirectiveScanner.next, outsideQuote, he, hq, hneed, hspace, hplain]
  all_goals
    have hbound := hin (by simp [hq])
    cases s
    simp_all [DirectiveScanner.next, DirectiveScanner.insideQuote]

theorem Reads.copies (hl : t.lastSpace = false) (hn : t.needSpace = false) (v : Bool) (w : Bytes) :
    Reads [b] t { t with inVariable := v, word := w } := by
  constructor <;> simp_all

theorem Tracks.reword (h : Tracks s t) (v : Bool) (w : Bytes) :
    Tracks s { t with inVariable := v, word := w } := by
  obtain ⟨hc, hq, hns, hls, hd, hsq, hkind, hin, hesc⟩ := h
  constructor <;> assumption

/-- Neither a carriage return nor a line feed. -/
def LineFree (b : UInt8) : Prop := b ≠ '\r'.toUInt8 ∧ b ≠ '\n'.toUInt8

theorem next_lineFree (h : s.next b.toNat = .more s') : LineFree b := by
  constructor <;> rintro rfl <;> simp [DirectiveScanner.next, toUInt8] at h

/-- The tokenizer reads the bytes outside any comment and ends up next to the scanner. -/
def Follows (t : ConfToken) (bytes : Bytes) (s' : DirectiveScanner) : Prop :=
  (∀ b ∈ bytes, LineFree b) ∧
  ∃ t', Stays ConfToken.step (·.sharpComment = false) t bytes t' ∧ Tracks s' t' ∧ Reads bytes t t'

theorem Follows.nil (h : Tracks s t) : Follows t [] s :=
  ⟨by simp, t, ⟨h.comment, rfl⟩, h, Reads.nil t⟩

theorem Follows.cons (h : Tracks s t) (hb : LineFree b) (hstep : t.step b = .more u)
    (hr : Reads [b] t u) (hrest : Follows u bytes s') : Follows t (b :: bytes) s' := by
  obtain ⟨hbytes, t', hstays, htracks, hreads⟩ := hrest
  refine ⟨?_, t', Stays.cons h.comment hstep hstays, htracks, hr.append hreads⟩
  simpa using ⟨hb, hbytes⟩

theorem Tracks.closing_brace (h : Tracks s t) (he : s.escaped = false) (hneed : s.needSpace = false)
    (hbound : s.tokenBoundary = false) :
    ∃ t', t.step '\x7d'.toUInt8 = .more t' ∧ Tracks s t' ∧ Reads ['\x7d'.toUInt8] t t' := by
  have hl : t.lastSpace = false := by rw [h.lastSpace, hbound]
  have hn : t.needSpace = false := by rw [h.needSpace, hneed]
  have hcopies : ∃ v, t.inToken '\x7d'.toUInt8 =
      .more { t with inVariable := v, word := t.word ++ ['\x7d'.toUInt8] } :=
    inToken_copies (by decide) (fun _ => by decide) (fun _ => by decide)
      (fun _ _ => by decide)
  obtain ⟨v, hv⟩ := hcopies
  exact ⟨_, (step_inToken _ h.comment (by rw [h.quoted, he]) hn hl).trans hv,
    h.reword .., Reads.copies hl hn ..⟩

variable {name : Bytes}

/-- The name of a braced variable and its closing brace are read as part of the token. -/
theorem Tracks.variable_name (h : Tracks s t) (he : s.escaped = false) (hneed : s.needSpace = false)
    (hbound : s.tokenBoundary = false) (hname : ∀ b ∈ name, isNginxVariableChar b = true) :
    Follows t (name ++ ['\x7d'.toUInt8]) s := by
  induction name generalizing t with
  | nil =>
    obtain ⟨t', hstep, htracks, hreads⟩ := h.closing_brace he hneed hbound
    exact .cons h ⟨by decide, by decide⟩ hstep hreads (Follows.nil htracks)
  | cons b name ih =>
    have hnext : s.next b.toNat = .more s := by
      rw [next_variable_byte h.quote (fun _ => hbound) he hneed
        (.inr (hname b (mem_cons_self ..))), ← hbound]
    obtain ⟨u, hstep, htracks, hreads⟩ := h.step hnext
    exact .cons h (next_lineFree hnext) hstep hreads
      (ih htracks fun c hc => hname c (mem_cons_of_mem _ hc))

theorem step_dollar (hc : t.sharpComment = false) (hq : t.quoted = false) (hn : t.needSpace = false)
    (h : t.step '$'.toUInt8 = .more u) : u.inVariable = true := by
  cases hl : t.lastSpace with
  | true =>
    rw [step_atStart _ hc hq hn hl] at h
    simp [atStart, isConfSpace, toUInt8] at h
    rw [← h]
  | false =>
    rw [step_inToken _ hc hq hn hl] at h
    simp [inToken, toUInt8] at h
    rw [← h]

/-- A whole braced variable is read as part of the token, whether quoted or not. -/
theorem Tracks.braced_variable (h : Tracks s t) (he : s.escaped = false)
    (hneed : s.needSpace = false) (hname : ∀ b ∈ name, isNginxVariableChar b = true) :
    Follows t ('$'.toUInt8 :: '\x7b'.toUInt8 :: name ++ ['\x7d'.toUInt8])
      { s with tokenBoundary := false } := by
  obtain ⟨u, hstep, htracks, hreads⟩ := h.step
    (next_variable_byte h.quote (fun hq => (h.insideQuote hq).1) he hneed (.inl rfl))
  have hl : u.lastSpace = false := htracks.lastSpace
  have hn : u.needSpace = false := htracks.needSpace.trans hneed
  have hq : u.quoted = false := htracks.quoted.trans he
  have hv : u.inVariable = true :=
    step_dollar h.comment (h.quoted.trans he) (h.needSpace.trans hneed) hstep
  have hbrace : u.step '\x7b'.toUInt8 = .more { u with word := u.word ++ ['\x7b'.toUInt8] } := by
    rw [step_inToken _ htracks.comment hq hn hl]
    simp [inToken, hv]
  refine Follows.cons h ⟨by decide, by decide⟩ hstep hreads
    (Follows.cons htracks ⟨by decide, by decide⟩ hbrace (Reads.copies hl hn _ _) ?_)
  exact (htracks.reword _ _).variable_name he hneed rfl hname

theorem run_variable_bytes (hkind : s.quote = 0 ∨ s.quote = 34 ∨ s.quote = 39)
    (hbound : s.tokenBoundary = false) (he : s.escaped = false) (hneed : s.needSpace = false)
    (hbytes : ∀ b ∈ bytes, isNginxVariableChar b = true) :
    run next s (bytes.map UInt8.toNat) = .more s := by
  induction bytes with
  | nil => rfl
  | cons b bytes ih =>
    have hnext : s.next b.toNat = .more s := by
      rw [next_variable_byte hkind (fun _ => hbound) he hneed
        (.inr (hbytes b (mem_cons_self ..))), ← hbound]
    rw [map_cons, Stepper.run_cons_of_more hnext]
    exact ih fun c hc => hbytes c (mem_cons_of_mem _ hc)

theorem variableMask_eq :
    variableMask = '$'.toUInt8 :: "variable".toList.map toUInt8 := rfl

/-- The scanner accepts the mask of a variable only where no white space is due. -/
theorem run_variableMask {rest : List Nat} (h : Tracks s t) (he : s.escaped = false)
    (hrun : run next s (variableMask.map UInt8.toNat ++ rest) = .more s') :
    s.needSpace = false ∧
      run next { s with tokenBoundary := false } rest = .more s' := by
  rw [variableMask_eq, map_cons, cons_append] at hrun
  obtain ⟨mid, hfirst, hletters⟩ := Stepper.run_cons_more hrun
  have hneed : s.needSpace = false := by
    by_contra hne
    have hneed : s.needSpace = true := by simpa using hne
    have hquote : s.quote = 0 := by
      by_contra hq
      simp [(h.insideQuote hq).2] at hneed
    simp [DirectiveScanner.next, outsideQuote, isNginxSpace, toUInt8,
      he, hquote, hneed] at hfirst
  rw [next_variable_byte h.quote (fun hq => (h.insideQuote hq).1) he hneed (.inl rfl)] at hfirst
  cases hfirst
  have hsame : run next { s with tokenBoundary := false }
      (("variable".toList.map toUInt8).map UInt8.toNat) =
      .more { s with tokenBoundary := false } :=
    run_variable_bytes h.quote rfl he hneed (by decide +kernel)
  rw [Stepper.run_append_of_more hsame] at hletters
  exact ⟨hneed, hletters⟩

/-- The scanner's run over the masked bytes is followed by the tokenizer on the bytes
themselves. The induction is on the iterations of the masking loop; the escape
state of the scanner carries the parity of the backslashes before the index. -/
theorem follows_maskFrom {fuel : Nat} {rest : Bytes} (hfuel : rest.length ≤ fuel) (h : Tracks s t)
    (hesc : s.escaped = isEscaped before)
    (hrun : run next s ((maskFrom fuel before rest).map UInt8.toNat) = .more s') :
    Follows t rest s' := by
  induction fuel generalizing before rest s t with
  | zero =>
    have hnil : rest = [] := length_eq_zero_iff.mp (Nat.le_zero.mp hfuel)
    subst hnil
    cases hrun
    exact .nil h
  | succ fuel ih =>
    cases rest with
    | nil =>
      cases hrun
      exact .nil h
    | cons b rest =>
      cases hv : bracedNginxVariableEnd before (b :: rest) with
      | none =>
        simp only [maskFrom, hv, map_cons] at hrun
        obtain ⟨mid, hnext, hrest⟩ := Stepper.run_cons_more hrun
        obtain ⟨u, hstep, htracks, hreads⟩ := h.step hnext
        exact .cons h (next_lineFree hnext) hstep hreads
          (ih (by simpa using hfuel) htracks (next_escaped hesc hnext) hrest)
      | some found =>
        obtain ⟨braced, after⟩ := found
        obtain ⟨hbefore, hbytes, name, rfl, hname⟩ := bracedNginxVariableEnd_some hv
        have he : s.escaped = false := hesc.trans hbefore
        simp only [maskFrom, hv, map_append] at hrun
        obtain ⟨hneed, hrest⟩ := run_variableMask h he hrun
        obtain ⟨hfree, u, hstays, htracks, hreads⟩ := h.braced_variable he hneed hname
        have hlen : after.length ≤ fuel := by
          have := congrArg length hbytes
          simp at this hfuel
          omega
        have hclosed : isEscaped (('$'.toUInt8 :: '\x7b'.toUInt8 :: name ++
            ['\x7d'.toUInt8]).reverse ++ before) = false := by
          simp [isEscaped, toUInt8]
        obtain ⟨hfree', v, hstays', htracks', hreads'⟩ :=
          ih hlen htracks (he.trans hclosed.symm) hrest
        rw [hbytes]
        refine ⟨fun b hb => ?_, v, hstays.append hstays', htracks', hreads.append hreads'⟩
        exact (mem_append.mp hb).elim (hfree b) (hfree' b)

theorem step_semicolon (h : Tracks s t) (hend : s.atEnd = none) (hargs : t.args ≠ []) :
    t.step ';'.toUInt8 = .stop (.ok (argsIfEnded t)) := by
  have hclosed : s.escaped = false ∧ s.quote = 0 := by
    simpa [DirectiveScanner.atEnd] using hend
  obtain ⟨he, hquote⟩ := hclosed
  have hq : t.quoted = false := h.quoted.trans he
  have hd : t.dQuoted = false := by simp [h.dQuoted, hquote]
  have hs : t.sQuoted = false := by simp [h.sQuoted, hquote]
  have hc := h.comment
  unfold argsIfEnded
  cases hn : t.needSpace <;> cases hl : t.lastSpace <;>
    simp [ConfToken.step, atStart, inToken, found, isConfSpace,
      toUInt8, hc, hq, hn, hl, hd, hs, hargs]

/-- Read after the directive name, the value keeps to its own directive: no prefix of
it ends the directive, opens or closes a block or leaves the tokenizer in a
comment, and the semicolon after it ends the directive with these arguments. -/
def StaysInDirective (name value : Bytes) (args : List Bytes) : Prop :=
  (∀ read, read <+: value → ∃ t, (afterName name).read read = .more t ∧
    t.sharpComment = false) ∧
  (afterName name).read (value ++ [';'.toUInt8]) = .stop (.ok (name :: args), [])

theorem tracks_start (name : Bytes) :
    Tracks { tokenBoundary := true } (afterName name) := by
  constructor <;> simp [afterName]

variable {value : Bytes}

theorem follows_of_accepted (name : Bytes) (h : validateDirectiveValue value = none) :
    ∃ s, s.atEnd = none ∧ Follows (afterName name) value s := by
  unfold validateDirectiveValue at h
  split at h
  · cases h
  split at h
  · cases h
  · rename_i s hrun
    refine ⟨s, h, ?_⟩
    have hbytes := Utf8.run_bytes_of_runes next_asciiReader ⟨by simp, by simp, by simp⟩ hrun
    exact follows_maskFrom le_rfl (tracks_start name) rfl hbytes

theorem Follows.staysInDirective (h : Follows (afterName name) value s)
    (hend : s.atEnd = none) : ∃ t, Reads value (afterName name) t ∧
      ∃ args, argsIfEnded t = name :: args ∧ StaysInDirective name value args := by
  obtain ⟨-, t, hstays, htracks, hreads⟩ := h
  obtain ⟨more, hmore⟩ := hreads.args
  have hargs : t.args = name :: more := hmore.symm
  have hended : ∃ args, argsIfEnded t = name :: args := by
    unfold argsIfEnded
    split
    · exact ⟨more, hargs⟩
    · exact ⟨more ++ [Nginx.unescapeWord t.word], by simp [found, hargs]⟩
  obtain ⟨args, hended⟩ := hended
  refine ⟨t, hreads, args, hended, ?_, ?_⟩
  · rintro read ⟨rest, rfl⟩
    exact hstays.good_of_prefix
  · rw [ConfToken.read, Stepper.run_append_of_more hstays.run_eq,
      Stepper.run_cons_of_stop (step_semicolon htracks hend (by simp [hargs])), hended]

theorem exists_not_space_of_accepted (h : validateDirectiveValue value = none) :
    ∃ b ∈ value, isConfSpace b = false := by
  by_contra hall
  have hspace : ∀ b ∈ value, isConfSpace b = true := by simpa using hall
  have hval : ∀ b ∈ value, b.toNat = 32 ∨ b.toNat = 9 ∨ b.toNat = 13 ∨ b.toNat = 10 := by
    intro b hb
    have := hspace b hb
    simp [isConfSpace, toUInt8, ← UInt8.toNat_inj] at this
    omega
  have hascii : ∀ b ∈ value, b < 0x80 := by
    intro b hb
    have := hval b hb
    rw [UInt8.lt_iff_toNat_lt]
    simp only [UInt8.reduceToNat]
    omega
  have hblank : (runes value).all isUnicodeSpace = true := by
    rw [runes, Utf8.runesFuel_ascii le_rfl hascii, all_map, all_eq_true]
    intro b hb
    rcases hval b hb with h | h | h | h <;> simp [isUnicodeSpace, h]
  simp [validateDirectiveValue, hblank] at h

theorem validateDirectiveValue_stays (name : Bytes) (h : validateDirectiveValue value = none) :
    ∃ args, args ≠ [] ∧ StaysInDirective name value args := by
  obtain ⟨s, hend, hfollows⟩ := follows_of_accepted name h
  obtain ⟨t, hreads, args, hended, hstays⟩ := hfollows.staysInDirective hend
  refine ⟨args, ?_, hstays⟩
  rintro rfl
  have hcount := hreads.starts rfl (exists_not_space_of_accepted h)
  rw [hended] at hcount
  exact absurd hcount (by simp [argsIfEnded, afterName])

theorem validateDirectiveToken_accepted (h : validateDirectiveToken value = none) :
    value ≠ [] ∧ validateDirectiveValue value = none ∧
      ∀ b ∈ value, b ≠ ' '.toUInt8 ∧ b ≠ '\t'.toUInt8 := by
  unfold validateDirectiveToken at h
  by_cases hne : value = []
  · simp [hne] at h
  rw [if_neg hne] at h
  cases hv : validateDirectiveValue value with
  | some err => simp [hv] at h
  | none =>
    simp only [hv, ite_eq_right_iff, reduceCtorEq, imp_false, any_eq_true, not_exists, not_and] at h
    refine ⟨hne, rfl, fun b hb => ?_⟩
    have hb' := h b hb
    simp only [Bool.or_eq_true, decide_eq_true_eq, not_or] at hb'
    exact ⟨hb'.1.2, hb'.2⟩

theorem validateDirectiveToken_stays (name : Bytes) (h : validateDirectiveToken value = none) :
    ∃ arg, StaysInDirective name value [arg] := by
  obtain ⟨hne, hvalue, hblank⟩ := validateDirectiveToken_accepted h
  obtain ⟨s, hend, hfollows⟩ := follows_of_accepted name hvalue
  have hspace : ∀ b ∈ value, isConfSpace b = false := fun b hb => by
    obtain ⟨hcr, hlf⟩ := hfollows.1 b hb
    simp [isConfSpace, hblank b hb, hcr, hlf]
  obtain ⟨t, hreads, args, hended, hstays⟩ := hfollows.staysInDirective hend
  obtain ⟨-, hcount⟩ := hreads.token hne hspace
  rw [hended] at hcount
  have hone : args.length = 1 := by
    simpa [argsIfEnded, afterName] using hcount
  obtain ⟨arg, rfl⟩ := length_eq_one_iff.mp hone
  exact ⟨arg, hstays⟩

/-- No accepted value leaves the directive it is rendered into, and an accepted token is one
argument of it. -/
theorem accepted_directive_text_stays (name value : Bytes) :
    (validateDirectiveValue value = none →
      ∃ args, args ≠ [] ∧ StaysInDirective name value args) ∧
    (validateDirectiveToken value = none → ∃ arg, StaysInDirective name value [arg]) :=
  ⟨validateDirectiveValue_stays name, validateDirectiveToken_stays name⟩

theorem accepted_directive_text_stays_quoted :
    (∃ args, args ≠ [] ∧ StaysInDirective ("hash".toList.map toUInt8)
      ("\"a;b\" don't $\x7bhost\x7d".toList.map toUInt8) args) ∧
    ∃ arg, StaysInDirective ("hash".toList.map toUInt8)
      ("$\x7bhost\x7d\"x".toList.map toUInt8) [arg] :=
  ⟨(accepted_directive_text_stays _ _).1 (by decide),
    (accepted_directive_text_stays _ _).2 (by decide)⟩

end IngressController.Validation
