import IngressController.Validation.BalancedSizes

/-! # Rules for proxy buffers

NGINX starts only if the sizes of the proxy buffers fit each other. Balancing gives such sizes, and
balancing them again changes nothing, but NGINX cannot read the unit `g`.
-/

namespace IngressController.Validation

open GoString List

/-- A number of bytes, kilobytes or megabytes. -/
def nginxSize (size : List Char) : Option Nat :=
  match size.getLast? with
  | none => none
  | some unit =>
    if unit = 'k' ∨ unit = 'K' then (parseUint size.dropLast).map (· * sizeKB)
    else if unit = 'm' ∨ unit = 'M' then (parseUint size.dropLast).map (· * sizeMB)
    else parseUint size

variable (values : List Char × List Char × List Char)

/-- The number and the size of the buffers, the size of the first buffer and the busy size. What is
absent has the default of NGINX. -/
def nginxBuffers : Option (Nat × Nat × Nat × Nat) := do
  let (number, size) ← if values.1 = [] then some (8, 4 * 1024) else
    match fields values.1 with
    | [number, size] => (parseUint number).bind fun number => (nginxSize size).map (number, ·)
    | _ => none
  let first ← if values.2.1 = [] then some (4 * 1024) else nginxSize values.2.1
  let busy ← if values.2.2 = [] then some (2 * max first size) else nginxSize values.2.2
  some (number, size, first, busy)

def MeetsRules : Prop :=
  ∃ number size first busy, nginxBuffers values = some (number, size, first, busy) ∧
    2 ≤ number ∧ max first size ≤ busy ∧ busy ≤ size * (number - 1)

def HasAcceptedSizes : Prop :=
  ∀ size ∈ (fields values.1).tail ++ [values.2.1, values.2.2], ∀ path,
    validateSize (String.ofList size) path = []

/-- NGINX starts with the values, balancing keeps them and the validator accepts them. -/
structure IsSettled (values : List Char × List Char × List Char) : Prop where
  rules : MeetsRules values
  balanced : balanceProxyValues values.1 values.2.1 values.2.2 true = values
  accepted : HasAcceptedSizes values

theorem lowerChar_of_isDigit {c : Char} (h : isDigit c = true) : lowerChar c = c := by
  rw [isDigit, Bool.and_eq_true, decide_eq_true_eq, decide_eq_true_eq] at h
  have hle : c.toNat ≤ 57 := h.2
  rw [lowerChar, if_neg, if_neg, if_neg]
  · omega
  · omega
  · rw [Bool.and_eq_true, decide_eq_true_eq, not_and]
    intro hA
    have hge : 65 ≤ c.toNat := hA
    omega

variable {bytes : Nat}

/-- Sizes that are written without rounding. -/
def IsWhole (bytes : Nat) : Prop := bytes % sizeKB = 0 ∧ bytes < 2 ^ 64

instance : Decidable (IsWhole bytes) := inferInstanceAs (Decidable (_ ∧ _))

theorem IsWhole.eq_text (h : IsWhole bytes) :
    ∃ n unit, bytesToSizeString bytes = ofNat n ++ [unit] ∧ n * unitBytes unit = bytes ∧
      parseUint (ofNat n) = some n ∧ (unit = 'g' ∧ wholeGigabytes bytes = true ∨
        (unit = 'm' ∨ unit = 'k') ∧ wholeGigabytes bytes = false) := by
  obtain ⟨n, unit, hsize, hbytes, hunit⟩ := bytesToSizeString_cases bytes
  have hmul := hbytes h.1
  have hpos : 1 ≤ unitBytes unit := by
    unfold unitBytes
    split_ifs <;> decide
  have hn : n ≤ n * unitBytes unit := Nat.le_mul_of_pos_right n hpos
  exact ⟨n, unit, hsize, hmul, parseUint_ofNat (Nat.lt_of_le_of_lt (hmul ▸ hn) h.2), hunit⟩

theorem IsWhole.parseSizeToBytes (h : IsWhole bytes) :
    parseSizeToBytes (bytesToSizeString bytes) = bytes := by
  have htrim : trimSpace (bytesToSizeString bytes) = bytesToSizeString bytes :=
    trim_eq_self fun c hc => isSpace_of_mem_bytesToSizeString hc
  obtain ⟨n, unit, hsize, hbytes, hparse, hunit⟩ := h.eq_text
  have hlower : toLower (ofNat n ++ [unit]) = ofNat n ++ [unit] := by
    rw [toLower, map_append,
      map_congr_left fun c hc => lowerChar_of_isDigit (isDigit_of_mem_ofNat hc), map_id']
    rcases hunit with ⟨rfl, -⟩ | ⟨rfl | rfl, -⟩ <;> rfl
  have hwrap : wrap (n * unitBytes unit) = bytes := by
    rw [hbytes]
    exact Nat.mod_eq_of_lt h.2
  rw [Validation.parseSizeToBytes, htrim, hsize, hlower, getLast?_concat, dropLast_concat]
  rcases hunit with ⟨rfl, -⟩ | ⟨rfl | rfl, -⟩ <;> simpa [hparse, unitBytes] using hwrap

theorem IsWhole.nginxSize (h : IsWhole bytes) (hgb : wholeGigabytes bytes = false) :
    nginxSize (bytesToSizeString bytes) = some bytes := by
  obtain ⟨n, unit, hsize, rfl, hparse, hunit⟩ := h.eq_text
  rw [Validation.nginxSize, hsize, getLast?_concat, dropLast_concat]
  rcases hunit with ⟨rfl, hwhole⟩ | ⟨rfl | rfl, -⟩
  · rw [hgb] at hwhole
    cases hwhole
  · simp [hparse, unitBytes]
  · simp [hparse, unitBytes]

theorem isWhole_parseSizeToBytes (size : List Char) : IsWhole (parseSizeToBytes size) := by
  unfold Validation.parseSizeToBytes IsWhole wrap sizeKB sizeMB sizeGB
  dsimp only
  split
  · decide
  · split
    · split_ifs <;> omega
    · decide

/-- The number and the size of the buffers, the size of the first buffer and the busy size that
the settings ask for. -/
def givenBuffers (pb pbs pbbs : List Char) : Nat × Nat × Nat × Nat :=
  let (number, size) :=
    if pb = [] then (minNGINXBufferCount, 4 * 1024) else parseProxyBuffers pb
  (number, size, parseBufferSizes pbs pbbs size)

/-- The sizes asked for, cut at the limit of all buffers but one, are no whole numbers of gigabytes.
The busy size counts only where it is the largest. -/
def AvoidsGigabytes (number size first busy : Nat) : Prop :=
  let limit := wrap (size * (validateBufferConstraints number - 1))
  wholeGigabytes size = false ∧ wholeGigabytes (min first limit) = false ∧
    (max size (min first limit) < min busy limit → wholeGigabytes (min busy limit) = false)

instance (number size first busy : Nat) : Decidable (AvoidsGigabytes number size first busy) :=
  inferInstanceAs (Decidable (_ ∧ _ ∧ (_ → _)))

/-- The sizes within the limits that a number of buffers sets. -/
def limited (number size first busy : Nat) : Nat × Nat × Nat × Nat :=
  let number := validateBufferConstraints number
  let (first, busy) := applyBufferSizeConstraints first busy size
    (wrap (wrap (size * number) + 2 ^ 64 - size))
  (number, size, first, busy)

theorem isWhole_givenBuffers {pb pbs pbbs : List Char} {number size first busy : Nat}
    (h : givenBuffers pb pbs pbbs = (number, size, first, busy)) :
    IsWhole size ∧ IsWhole first ∧ IsWhole busy := by
  have hsize : IsWhole
      (if pb = [] then (minNGINXBufferCount, 4 * 1024) else parseProxyBuffers pb).2 := by
    unfold parseProxyBuffers
    split_ifs
    · decide
    · split
      · split
        · exact isWhole_parseSizeToBytes _
        · decide
      · decide
  simp only [givenBuffers, Prod.mk.injEq, parseBufferSizes] at h
  obtain ⟨-, rfl, rfl, rfl⟩ := h
  have hparsed : ∀ text, IsWhole (if text ≠ [] then parseSizeToBytes text else
      (if pb = [] then (minNGINXBufferCount, 4 * 1024) else parseProxyBuffers pb).2) := by
    intro text
    split
    · exact isWhole_parseSizeToBytes text
    · exact hsize
  exact ⟨hsize, hparsed pbs, hparsed pbbs⟩

section

variable {number size first busy : Nat}

/-- The limit is the size of all buffers but one, as far as it can be represented. -/
theorem limited_eq (hsize : size < 2 ^ 64) :
    limited number size first busy =
      let number := validateBufferConstraints number
      let limit := wrap (size * (number - 1))
      (number, size, min first limit, max (min busy limit) (max size (min first limit))) := by
  have hmul : size * validateBufferConstraints number =
      size * (validateBufferConstraints number - 1) + size := by
    rw [← Nat.mul_succ, Nat.succ_eq_add_one, Nat.sub_add_cancel]
    simp only [validateBufferConstraints, minNGINXBufferCount, maxNGINXBufferCount]
    omega
  have hlimit : wrap (wrap (size * validateBufferConstraints number) + 2 ^ 64 - size) =
      wrap (size * (validateBufferConstraints number - 1)) := by
    rw [hmul, wrap, wrap, wrap]
    omega
  rw [limited, hlimit]
  rfl

theorem validateBufferConstraints_bounds (number : Nat) :
    2 ≤ validateBufferConstraints number ∧ validateBufferConstraints number ≤ 1024 := by
  simp only [validateBufferConstraints, minNGINXBufferCount, maxNGINXBufferCount]
  omega

theorem validateBufferConstraints_eq_self (h : 2 ≤ number ∧ number ≤ 1024) :
    validateBufferConstraints number = number := by
  simp only [validateBufferConstraints, minNGINXBufferCount, maxNGINXBufferCount]
  omega

/-- Limited sizes meet the rules and stay as they are. They are whole numbers of gigabytes where
what was asked for is. -/
theorem limited_spec (hsize : IsWhole size) (hfirst : IsWhole first) (hbusy : IsWhole busy) :
    ∃ number' first' busy', limited number size first busy = (number', size, first', busy') ∧
      (2 ≤ number' ∧ number' ≤ 1024) ∧ (IsWhole first' ∧ IsWhole busy') ∧
      (max first' size ≤ busy' ∧ busy' ≤ size * (number' - 1)) ∧
      limited number' size first' busy' = (number', size, first', busy') ∧
      ((∀ bytes ∈ [size, first', busy'], wholeGigabytes bytes = false) ↔
        AvoidsGigabytes number size first busy) := by
  have hcount := validateBufferConstraints_bounds number
  have hunits : ∀ limit, (∀ bytes ∈ [size, min first limit,
      max (min busy limit) (max size (min first limit))], wholeGigabytes bytes = false) ↔
      wholeGigabytes size = false ∧ wholeGigabytes (min first limit) = false ∧
        (max size (min first limit) < min busy limit →
          wholeGigabytes (min busy limit) = false) := by
    intro limit
    simp only [forall_mem_cons, not_mem_nil, false_implies, implies_true, and_true]
    refine and_congr_right fun hgb => and_congr_right fun hgb' => ?_
    by_cases hlarger : max size (min first limit) < min busy limit
    · rw [Nat.max_eq_left hlarger.le]
      simp [hlarger]
    · -- the busy size is one of the two others
      rw [Nat.max_eq_right (Nat.le_of_not_lt hlarger)]
      refine iff_of_true ?_ fun h => absurd h hlarger
      obtain h | h := max_choice size (min first limit) <;> rw [h] <;> assumption
  have hagain := validateBufferConstraints_eq_self hcount
  unfold AvoidsGigabytes
  rw [limited_eq hsize.2]
  generalize validateBufferConstraints number = count at hcount hagain
  have hlimit : IsWhole (wrap (size * (count - 1))) := by
    obtain ⟨k, rfl⟩ := Nat.dvd_of_mod_eq_zero hsize.1
    rw [Nat.mul_assoc, IsWhole, wrap, sizeKB]
    omega
  have hle : wrap (size * (count - 1)) ≤ size * (count - 1) := Nat.mod_le _ _
  have hone : size ≤ size * (count - 1) := Nat.le_mul_of_pos_right size (by omega)
  refine ⟨count, _, _, rfl, hcount, ?_, ?_, ?_, hunits _⟩
  · unfold IsWhole sizeKB at *
    omega
  · omega
  · rw [limited_eq hsize.2, hagain, Prod.mk.injEq, Prod.mk.injEq, Prod.mk.injEq]
    omega

end

theorem balancedBytes_text {number size first busy : Nat} (hnumber : number ≤ 1024)
    (hsize : IsWhole size) (hfirst : IsWhole first) (hbusy : IsWhole busy) :
    balancedBytes (ofNat number ++ ' ' :: bytesToSizeString size) (bytesToSizeString first)
      (bytesToSizeString busy) = limited number size first busy := by
  have htrim : trimSpace (ofNat number ++ ' ' :: bytesToSizeString size) =
      ofNat number ++ ' ' :: bytesToSizeString size := by
    apply trimSpace_eq_self
    · intro c hc
      have hin : c ∈ ofNat number := by
        rw [head?_append_of_ne_nil _ (ofNat_ne_nil number)] at hc
        exact mem_of_mem_head? hc
      exact isSpace_of_isDigit (isDigit_of_mem_ofNat hin)
    · intro c hc
      have hin : c ∈ bytesToSizeString size := by
        rw [getLast?_append_cons, getLast?_cons_of_ne_nil (bytesToSizeString_ne_nil size)]
          at hc
        exact mem_of_getLast? hc
      exact isSpace_of_mem_bytesToSizeString hin
  have hparsed : parseProxyBuffers (ofNat number ++ ' ' :: bytesToSizeString size) =
      (number, size) := by
    simp [parseProxyBuffers, htrim, fields_balanced, hsize.parseSizeToBytes,
      parseUint_ofNat (show number < 2 ^ 64 by omega)]
  simp [balancedBytes, hparsed, parseBufferSizes, bytesToSizeString_ne_nil, hfirst.parseSizeToBytes,
    hbusy.parseSizeToBytes, limited]

def bufferTexts (number size first busy : Nat) : List Char × List Char × List Char :=
  (ofNat number ++ ' ' :: bytesToSizeString size, bytesToSizeString first, bytesToSizeString busy)

theorem balanceProxyValues_of_bytes {pb pbs pbbs : List Char} {number size first busy : Nat}
    (h : ¬ (pb = [] ∧ pbs = [] ∧ pbbs = []))
    (hbytes : balancedBytes pb pbs pbbs = (number, size, first, busy)) :
    balanceProxyValues pb pbs pbbs true = bufferTexts number size first busy := by
  rw [balanceProxyValues, if_neg, hbytes]
  · rfl
  · simpa [and_assoc] using h

theorem balanceProxyValues_bufferTexts {number size first busy : Nat} (hnumber : number ≤ 1024)
    (hsize : IsWhole size) (hfirst : IsWhole first) (hbusy : IsWhole busy)
    (hlimited : limited number size first busy = (number, size, first, busy)) :
    let values := bufferTexts number size first busy
    balanceProxyValues values.1 values.2.1 values.2.2 true = values := by
  apply balanceProxyValues_of_bytes
  · simp [bytesToSizeString_ne_nil, bufferTexts]
  · exact (balancedBytes_text hnumber hsize hfirst hbusy).trans hlimited

/-- Limited sizes are as they should be if NGINX can read their units. -/
theorem isSettled_bufferTexts_iff {number size first busy : Nat}
    (hnumber : 2 ≤ number ∧ number ≤ 1024) (hsize : IsWhole size) (hfirst : IsWhole first)
    (hbusy : IsWhole busy) (hrules : max first size ≤ busy ∧ busy ≤ size * (number - 1))
    (hlimited : limited number size first busy = (number, size, first, busy)) :
    IsSettled (bufferTexts number size first busy) ↔
      ∀ bytes ∈ [size, first, busy], wholeGigabytes bytes = false := by
  have haccepted : HasAcceptedSizes (bufferTexts number size first busy) ↔
      ∀ bytes ∈ [size, first, busy], wholeGigabytes bytes = false := by
    simp [HasAcceptedSizes, bufferTexts, fields_balanced, validateSize_bytesToSizeString]
  refine ⟨fun h => haccepted.mp h.accepted, fun h => ⟨?_,
    balanceProxyValues_bufferTexts hnumber.2 hsize hfirst hbusy hlimited, haccepted.mpr h⟩⟩
  refine ⟨number, size, first, busy, ?_, hnumber.1, hrules⟩
  have hparse : parseUint (ofNat number) = some number := parseUint_ofNat (by omega)
  simp only [forall_mem_cons, not_mem_nil, false_implies, implies_true, and_true] at h
  simp [nginxBuffers, bufferTexts, fields_balanced, bytesToSizeString_ne_nil, hparse,
    hsize.nginxSize h.1, hfirst.nginxSize h.2.1, hbusy.nginxSize h.2.2]

/-- Balancing again changes nothing, and balanced values are as they should be exactly if the
settings avoid whole gigabytes. -/
theorem isSettled_balanceProxyValues_iff (pb pbs pbbs : List Char) :
    let values := balanceProxyValues pb pbs pbbs true
    let (number, size, first, busy) := givenBuffers pb pbs pbbs
    balanceProxyValues values.1 values.2.1 values.2.2 true = values ∧
      (IsSettled values ↔ AvoidsGigabytes number size first busy) := by
  obtain ⟨⟨number, size, first, busy⟩, hgiven⟩ : ∃ given, givenBuffers pb pbs pbbs = given :=
    ⟨_, rfl⟩
  simp only [hgiven]
  by_cases habsent : pb = [] ∧ pbs = [] ∧ pbbs = []
  · obtain ⟨rfl, rfl, rfl⟩ := habsent
    cases hgiven
    have hsettled : IsSettled ([], [], []) := ⟨⟨8, 4096, 4096, 8192, by decide⟩, rfl,
      by simp [HasAcceptedSizes, fields, fieldsFrom, validateSize]⟩
    exact ⟨rfl, iff_of_true hsettled (by decide +kernel)⟩
  · obtain ⟨hsize, hfirst, hbusy⟩ := isWhole_givenBuffers hgiven
    have hbytes : balancedBytes pb pbs pbbs = limited number size first busy := by
      simp only [givenBuffers, Prod.mk.injEq] at hgiven
      obtain ⟨rfl, rfl, hsizes⟩ := hgiven
      simp only [balancedBytes, limited, hsizes]
    obtain ⟨number', first', busy', heq, hnumber, ⟨hfirst', hbusy'⟩, hrules, hlimited, hunits⟩ :=
      @limited_spec number size first busy hsize hfirst hbusy
    rw [balanceProxyValues_of_bytes habsent (hbytes.trans heq), ← hunits]
    exact ⟨balanceProxyValues_bufferTexts hnumber.2 hsize hfirst' hbusy' hlimited,
      isSettled_bufferTexts_iff hnumber hsize hfirst' hbusy' hrules hlimited⟩

/-- Buffers of 1024 megabytes become buffers of `1g`, which neither NGINX nor the validator
reads. -/
theorem gigabyte_buffers_are_unreadable :
    validateSize "1024m" "proxy-buffers" = [] ∧
      ¬ IsSettled (balanceProxyValues "4 1024m".toList [] [] true) := by
  refine ⟨by decide +kernel, fun h => ?_⟩
  have haccepted := h.accepted "1g".toList (by decide +kernel) ""
  exact absurd haccepted (by decide +kernel)

end IngressController.Validation
