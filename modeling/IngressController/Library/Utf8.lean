import Mathlib.Data.UInt
import IngressController.Library.Stepper

/-! # Runes of a byte string

Decoding follows the `range` loop over a byte string: the longest valid UTF-8
sequence at the front gives one rune, and a byte that starts no valid sequence
gives the replacement rune and is skipped alone. Only two facts matter to a
reader that looks for ASCII delimiters: an ASCII byte is its own rune, and every
other rune lies outside ASCII and covers non-ASCII bytes only.
-/

namespace Utf8

open List

abbrev Bytes := List UInt8

/-- The rune reported for a byte that starts no valid sequence. -/
def runeError : Nat := 0xFFFD

def isContinuation (b : UInt8) : Bool := 0x80 ≤ b && b ≤ 0xBF

/-- Accepted range of the second byte, which excludes overlong forms and surrogates. -/
def secondByteAccepted (b0 b1 : UInt8) : Bool :=
  if b0 = 0xE0 then 0xA0 ≤ b1 && b1 ≤ 0xBF
  else if b0 = 0xED then 0x80 ≤ b1 && b1 ≤ 0x9F
  else if b0 = 0xF0 then 0x90 ≤ b1 && b1 ≤ 0xBF
  else if b0 = 0xF4 then 0x80 ≤ b1 && b1 ≤ 0x8F
  else isContinuation b1

/-- First rune of a non-empty byte string and the number of bytes it covers. -/
def decodeRune (b0 : UInt8) (rest : Bytes) : Nat × Nat :=
  if b0 < 0x80 then (b0.toNat, 1)
  else if 0xC2 ≤ b0 && b0 ≤ 0xDF then
    match rest with
    | b1 :: _ =>
      if secondByteAccepted b0 b1 then ((b0.toNat - 0xC0) * 64 + (b1.toNat - 0x80), 2)
      else (runeError, 1)
    | _ => (runeError, 1)
  else if 0xE0 ≤ b0 && b0 ≤ 0xEF then
    match rest with
    | b1 :: b2 :: _ =>
      if secondByteAccepted b0 b1 && isContinuation b2 then
        ((b0.toNat - 0xE0) * 4096 + (b1.toNat - 0x80) * 64 + (b2.toNat - 0x80), 3)
      else (runeError, 1)
    | _ => (runeError, 1)
  else if 0xF0 ≤ b0 && b0 ≤ 0xF4 then
    match rest with
    | b1 :: b2 :: b3 :: _ =>
      if secondByteAccepted b0 b1 && isContinuation b2 && isContinuation b3 then
        ((b0.toNat - 0xF0) * 262144 + (b1.toNat - 0x80) * 4096 + (b2.toNat - 0x80) * 64 +
          (b3.toNat - 0x80), 4)
      else (runeError, 1)
    | _ => (runeError, 1)
  else (runeError, 1)

/-- Fuelled rune loop; every iteration consumes at least one byte. -/
def runesFuel : Nat → Bytes → List Nat
  | 0, _ => []
  | _ + 1, [] => []
  | fuel + 1, b :: rest =>
    (decodeRune b rest).1 :: runesFuel fuel (rest.drop ((decodeRune b rest).2 - 1))

/-- The runes a `range` loop visits. -/
def runes (bytes : Bytes) : List Nat := runesFuel bytes.length bytes

variable {b : UInt8}

theorem decodeRune_ascii (h : b < 0x80) (rest : Bytes) :
    decodeRune b rest = (b.toNat, 1) := by
  simp [decodeRune, h]

theorem secondByteAccepted_ge {b0 b1 : UInt8} (h : secondByteAccepted b0 b1 = true) :
    0x80 ≤ b1.toNat ∧ (b0.toNat = 0xE0 → 0xA0 ≤ b1.toNat) ∧
      (b0.toNat = 0xF0 → 0x90 ≤ b1.toNat) := by
  unfold secondByteAccepted isContinuation at h
  split_ifs at h <;>
    simp_all [UInt8.le_iff_toNat_le, ← UInt8.toNat_inj] <;> omega

theorem isContinuation_ge (h : isContinuation b = true) : 0x80 ≤ b.toNat := by
  simp only [isContinuation, Bool.and_eq_true, decide_eq_true_eq, UInt8.le_iff_toNat_le] at h
  exact h.1

/-- A rune that starts at a non-ASCII byte is not ASCII and covers no ASCII byte. -/
theorem decodeRune_wide (h : ¬ b < 0x80) (rest : Bytes) :
    0x80 ≤ (decodeRune b rest).1 ∧ ∀ c ∈ rest.take ((decodeRune b rest).2 - 1), 0x80 ≤ c.toNat := by
  unfold decodeRune
  rw [if_neg h]
  split_ifs with h2 h3 h4
  · split
    · split_ifs with hb
      · obtain ⟨h1, -, -⟩ := secondByteAccepted_ge hb
        simp only [Bool.and_eq_true, decide_eq_true_eq, UInt8.le_iff_toNat_le,
          UInt8.reduceToNat] at h2
        exact ⟨by simp only; omega, by simpa using h1⟩
      · simp [runeError]
    · simp [runeError]
  · split
    · split_ifs with hb
      · obtain ⟨hb1, hb2⟩ := Bool.and_eq_true_iff.mp hb
        obtain ⟨h1, hE0, -⟩ := secondByteAccepted_ge hb1
        have h2' := isContinuation_ge hb2
        simp only [Bool.and_eq_true, decide_eq_true_eq, UInt8.le_iff_toNat_le,
          UInt8.reduceToNat] at h3
        exact ⟨by simp only; omega, by simpa using ⟨h1, h2'⟩⟩
      · simp [runeError]
    · simp [runeError]
  · split
    · split_ifs with hb
      · obtain ⟨hb12, hb3⟩ := Bool.and_eq_true_iff.mp hb
        obtain ⟨hb1, hb2⟩ := Bool.and_eq_true_iff.mp hb12
        obtain ⟨h1, -, hF0⟩ := secondByteAccepted_ge hb1
        have h2' := isContinuation_ge hb2
        have h3' := isContinuation_ge hb3
        simp only [Bool.and_eq_true, decide_eq_true_eq, UInt8.le_iff_toNat_le,
          UInt8.reduceToNat] at h4
        exact ⟨by simp only; omega, by simpa using ⟨h1, h2', h3'⟩⟩
      · simp [runeError]
    · simp [runeError]
  · simp [runeError]

/-! ## Readers that look for ASCII delimiters

Such a reader treats all non-ASCII runes alike and a second one after the first
changes nothing, so it cannot tell the runes of a string from its bytes.
-/

variable {bytes : Bytes}

section Reader

open Stepper

variable {σ ρ : Type} {step : σ → Nat → Verdict σ ρ}

/-- In states that satisfy the invariant, non-ASCII runes are interchangeable and idempotent. -/
structure AsciiReader (step : σ → Nat → Verdict σ ρ) (inv : σ → Prop) : Prop where
  preserved : ∀ {s s' c}, inv s → step s c = .more s' → inv s'
  alike : ∀ {s s' c d}, inv s → 0x80 ≤ c → 0x80 ≤ d → step s c = .more s' → step s d = .more s'
  idem : ∀ {s s' c d}, inv s → 0x80 ≤ c → 0x80 ≤ d → step s c = .more s' → step s' d = .more s'

variable {inv : σ → Prop} (hread : AsciiReader step inv)
include hread

theorem run_wide {s s' : σ} {c : Nat} (hi : inv s) (hc : 0x80 ≤ c) (hs : step s c = .more s')
    (ds : List Nat) (hds : ∀ d ∈ ds, 0x80 ≤ d) : run step s' ds = .more s' := by
  induction ds with
  | nil => rfl
  | cons d ds ih =>
    rw [run_cons_of_more (hread.idem hi hc (hds d (mem_cons_self ..)) hs)]
    exact ih fun e he => hds e (mem_cons_of_mem _ he)

theorem run_bytes_of_runesFuel {fuel : Nat} {s s' : σ} (hi : inv s) (hfuel : bytes.length ≤ fuel)
    (h : run step s (runesFuel fuel bytes) = .more s') :
    run step s (bytes.map UInt8.toNat) = .more s' := by
  induction fuel generalizing bytes s with
  | zero =>
    have hnil : bytes = [] := length_eq_zero_iff.mp (Nat.le_zero.mp hfuel)
    subst hnil
    exact h
  | succ fuel ih =>
    cases bytes with
    | nil => exact h
    | cons b rest =>
      simp only [runesFuel] at h
      obtain ⟨mid, hstep, hrun⟩ := run_cons_more h
      have htail := ih (hread.preserved hi hstep) (by simp at hfuel ⊢; omega) hrun
      rw [map_cons]
      by_cases hb : b < 0x80
      · rw [decodeRune_ascii hb] at hstep htail
        rw [run_cons_of_more hstep]
        exact htail
      obtain ⟨hrune, hcover⟩ := decodeRune_wide hb rest
      have hb' : 0x80 ≤ b.toNat := by
        simpa [UInt8.lt_iff_toNat_lt] using hb
      rw [run_cons_of_more (hread.alike hi hrune hb' hstep)]
      -- the bytes the rune covers leave the state as the rune left it
      have hsame : run step mid
          ((rest.take ((decodeRune b rest).2 - 1)).map UInt8.toNat) = .more mid := by
        refine run_wide hread hi hrune hstep _ fun d hd => ?_
        obtain ⟨c, hc, rfl⟩ := mem_map.mp hd
        exact hcover c hc
      rw [← take_append_drop ((decodeRune b rest).2 - 1) rest, map_append, run_append_of_more hsame]
      simpa using htail

/-- An unstopped run over the runes of a string is an unstopped run over its bytes. -/
theorem run_bytes_of_runes {s s' : σ} (hi : inv s) (h : run step s (runes bytes) = .more s') :
    run step s (bytes.map UInt8.toNat) = .more s' :=
  run_bytes_of_runesFuel hread hi le_rfl h

omit hread

end Reader

theorem runesFuel_ascii {fuel : Nat} (hfuel : bytes.length ≤ fuel) (h : ∀ b ∈ bytes, b < 0x80) :
    runesFuel fuel bytes = bytes.map UInt8.toNat := by
  induction fuel generalizing bytes with
  | zero =>
    have hnil : bytes = [] := length_eq_zero_iff.mp (Nat.le_zero.mp hfuel)
    simp [hnil, runesFuel]
  | succ fuel ih =>
    cases bytes with
    | nil => rfl
    | cons b rest =>
      have hb := h b (mem_cons_self ..)
      simp only [runesFuel, decodeRune_ascii hb, map_cons]
      rw [ih (by simpa using hfuel) fun c hc => h c (mem_cons_of_mem _ (by simpa using hc))]
      simp

def encode (cs : List Char) : Bytes := cs.flatMap String.utf8EncodeChar

@[simp] theorem encode_nil : encode [] = [] := rfl

@[simp] theorem encode_append (cs ds : List Char) : encode (cs ++ ds) = encode cs ++ encode ds :=
  flatMap_append

theorem encode_cons (c : Char) (cs : List Char) :
    encode (c :: cs) = String.utf8EncodeChar c ++ encode cs := flatMap_cons

theorem encodeChar_ascii {c : Char} (h : c.toNat < 128) :
    String.utf8EncodeChar c = [UInt8.ofNat c.toNat] := by
  have hle : c.val.toNat ≤ 127 := Nat.lt_succ_iff.mp h
  rw [String.utf8EncodeChar, if_pos hle]
  rfl

theorem encodeChar_wide {c : Char} (h : 128 ≤ c.toNat) :
    String.utf8EncodeChar c ≠ [] ∧ ∀ b ∈ String.utf8EncodeChar c, 128 ≤ b.toNat := by
  have hle : ¬ c.val.toNat ≤ 127 := by
    have : 128 ≤ c.val.toNat := h
    omega
  rw [String.utf8EncodeChar, if_neg hle]
  split_ifs
  all_goals
    refine ⟨by simp, ?_⟩
    simp only [mem_cons, not_mem_nil, or_false, forall_eq_or_imp, forall_eq, UInt8.toNat_ofNat']
    omega

theorem mem_encode_ascii {cs : List Char} (hb : b.toNat < 128) (h : b ∈ encode cs) :
    ∃ c ∈ cs, c.toNat = b.toNat := by
  obtain ⟨c, hc, hbc⟩ := mem_flatMap.mp h
  by_cases hascii : c.toNat < 128
  · rw [encodeChar_ascii hascii, mem_singleton] at hbc
    refine ⟨c, hc, ?_⟩
    rw [hbc, UInt8.toNat_ofNat', Nat.mod_eq_of_lt (by omega)]
  · have hwide := (encodeChar_wide (by omega)).2 b hbc
    omega

end Utf8
