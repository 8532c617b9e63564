import IngressController.Validation.Buffers
import IngressController.Validation.VirtualServer

/-! # Accepted and balanced sizes

Balancing the buffers of an accepted upstream writes its sizes anew. A whole number of
gigabytes is written with the unit `g`, which the validator does not accept.
-/

namespace IngressController.Validation

open GoString FieldErrors List
open String (ofList toList_ofList)

theorem isBlank_of_isSpace {c : Char} (h : isSpace c = false) : isBlank c = false := by
  by_contra hblank
  rw [Bool.not_eq_false, isBlank, Bool.or_eq_true, decide_eq_true_eq, decide_eq_true_eq] at hblank
  rcases hblank with rfl | rfl <;> exact absurd h (by decide)

def wholeGigabytes (bytes : Nat) : Bool := bytes ≠ 0 && bytes % sizeGB = 0

theorem isNumberWithUnit_ofNat (units : List Char) (n : Nat) {unit : Char}
    (hunit : isDigit unit = false) :
    isNumberWithUnit units (ofNat n ++ [unit]) = units.contains unit := by
  have hread : (ofNat n ++ [unit]).takeWhile isDigit = ofNat n ∧
      (ofNat n ++ [unit]).dropWhile isDigit = [unit] :=
    span_append (fun c hc => isDigit_of_mem_ofNat hc) (by simp [hunit])
  simp [isNumberWithUnit, hread, ofNat_ne_nil]

def unitBytes (unit : Char) : Nat :=
  if unit = 'k' then sizeKB else if unit = 'm' then sizeMB else sizeGB

variable (bytes : Nat)

/-- The unit a number of bytes is written with. Only a part of a kilobyte is rounded. -/
theorem bytesToSizeString_cases : ∃ n unit, bytesToSizeString bytes = ofNat n ++ [unit] ∧
      (bytes % sizeKB = 0 → n * unitBytes unit = bytes) ∧
      (unit = 'g' ∧ wholeGigabytes bytes = true ∨
        (unit = 'm' ∨ unit = 'k') ∧ wholeGigabytes bytes = false) := by
  unfold bytesToSizeString wholeGigabytes
  by_cases hzero : bytes = 0
  · exact ⟨0, 'k', by rw [if_pos hzero]; rfl, fun _ => by simp [hzero],
      .inr ⟨.inr rfl, by simp [hzero]⟩⟩
  rw [if_neg hzero]
  split
  · rename_i hgb
    exact ⟨_, 'g', rfl, fun _ => Nat.div_mul_cancel (Nat.dvd_of_mod_eq_zero hgb),
      .inl ⟨rfl, by simp [hzero, hgb]⟩⟩
  rename_i hgb
  split
  · rename_i hmb
    exact ⟨_, 'm', rfl, fun _ => Nat.div_mul_cancel (Nat.dvd_of_mod_eq_zero hmb),
      .inr ⟨.inl rfl, by simp [hgb]⟩⟩
  · split
    · rename_i hkb
      exact ⟨_, 'k', rfl, fun _ => Nat.div_mul_cancel (Nat.dvd_of_mod_eq_zero hkb),
        .inr ⟨.inr rfl, by simp [hgb]⟩⟩
    · exact ⟨_, 'k', rfl, fun hkb => by contradiction, .inr ⟨.inr rfl, by simp [hgb]⟩⟩

theorem isSpace_of_mem_bytesToSizeString {bytes : Nat} {c : Char}
    (h : c ∈ bytesToSizeString bytes) : isSpace c = false := by
  obtain ⟨n, unit, hsize, -, hunit⟩ := bytesToSizeString_cases bytes
  rw [hsize, mem_append, mem_singleton] at h
  cases h with
  | inl hdigit => exact isSpace_of_isDigit (isDigit_of_mem_ofNat hdigit)
  | inr hc =>
    subst hc
    rcases hunit with ⟨rfl, -⟩ | ⟨rfl | rfl, -⟩ <;> decide

theorem isNumberWithUnit_bytesToSizeString :
    isNumberWithUnit ['k', 'K', 'm', 'M'] (bytesToSizeString bytes) = !wholeGigabytes bytes := by
  obtain ⟨n, unit, hsize, -, hunit⟩ := bytesToSizeString_cases bytes
  rw [hsize]
  rcases hunit with ⟨rfl, hwhole⟩ | ⟨rfl | rfl, hwhole⟩
  all_goals
    rw [isNumberWithUnit_ofNat _ _ (by decide), hwhole]
    decide

theorem bytesToSizeString_ne_nil : bytesToSizeString bytes ≠ [] := by
  obtain ⟨n, unit, hsize, -⟩ := bytesToSizeString_cases bytes
  simp [hsize]

theorem validateSize_bytesToSizeString (path : String) :
    validateSize (ofList (bytesToSizeString bytes)) path = [] ↔
      wholeGigabytes bytes = false := by
  have hne : ofList (bytesToSizeString bytes) ≠ "" := by
    intro h
    have := congrArg String.toList h
    rw [toList_ofList] at this
    exact bytesToSizeString_ne_nil bytes this
  have hspace : ∀ c ∈ bytesToSizeString bytes, isSpace c = false := fun c hc =>
    isSpace_of_mem_bytesToSizeString hc
  have hblanks : isSizeWithBlanks (bytesToSizeString bytes) = !wholeGigabytes bytes := by
    rw [isSizeWithBlanks, trim_eq_self fun c hc => isBlank_of_isSpace (hspace c hc),
      isNumberWithUnit_bytesToSizeString]
  have hparse : (parseSize (ofList (bytesToSizeString bytes))).isSome =
      !wholeGigabytes bytes := by
    rw [parseSize, toList_ofList, trimSpace, trim_eq_self hspace,
      isNumberWithUnit_bytesToSizeString]
    cases wholeGigabytes bytes <;> rfl
  rw [validateSize, toList_ofList, hblanks, hparse]
  cases wholeGigabytes bytes <;> simp [hne]

/-- The sizes of the buffers, of the first buffer and of the busy buffers, in bytes, that balancing
gives an upstream with buffers. -/
def balancedSizes (u : Upstream) (buffers : UpstreamBuffers) : List Nat :=
  let (pb, pbs, pbbs) := normalizedBuffers u buffers
  let (_, bufferSize, firstSize, busySize) := balancedBytes pb pbs pbbs
  [bufferSize, firstSize, busySize]

/-- No balanced size is a whole number of gigabytes. -/
def fitsUnits (u : Upstream) : Bool :=
  match u.proxyBuffers with
  | none => true
  | some buffers => (balancedSizes u buffers).all fun bytes => !wholeGigabytes bytes

variable {buffers : UpstreamBuffers} (u : Upstream)

theorem normalizedBuffers_ne_nil (h : 0 < buffers.number) :
    (normalizedBuffers u buffers).1 ≠ [] := by
  obtain ⟨n, hn⟩ : ∃ n : Nat, buffers.number = n := ⟨buffers.number.toNat, by omega⟩
  have hfirst : ∃ c rest, (toString buffers.number).toList ++ ' ' :: buffers.size.toList =
      c :: rest ∧ isSpace c = false := by
    have htext : (toString buffers.number).toList = ofNat n := by rw [hn]; rfl
    cases hdigits : ofNat n with
    | nil => exact absurd hdigits (ofNat_ne_nil n)
    | cons c rest =>
      refine ⟨c, rest ++ ' ' :: buffers.size.toList, by rw [htext, hdigits]; rfl, ?_⟩
      exact isSpace_of_isDigit (isDigit_of_mem_ofNat (by rw [hdigits]; simp))
  obtain ⟨c, rest, htext, hc⟩ := hfirst
  simp only [normalizedBuffers, htext, newNumberSizeConfig]
  have hlower : toLower (trimSpace (c :: rest)) ≠ [] := by
    simpa [toLower] using trimSpace_ne_nil hc
  rw [if_neg hlower]
  split
  · split
    · simp
    · decide
  · decide

theorem balancedBytes_number (pb pbs pbbs : List Char) :
    2 ≤ (balancedBytes pb pbs pbbs).1 ∧ (balancedBytes pb pbs pbbs).1 ≤ 1024 := by
  simp only [balancedBytes, validateBufferConstraints, minNGINXBufferCount, maxNGINXBufferCount]
  omega

theorem fields_balanced (n bytes : Nat) :
    fields (ofNat n ++ ' ' :: bytesToSizeString bytes) = [ofNat n, bytesToSizeString bytes] := by
  rw [fields, fieldsFrom_two]
  · rfl
  · simpa using ofNat_ne_nil n
  · exact bytesToSizeString_ne_nil bytes
  · exact fun c hc => isSpace_of_isDigit (isDigit_of_mem_ofNat hc)
  · exact fun c hc => isSpace_of_mem_bytesToSizeString hc

theorem balanceProxiesForUpstreams_eq (hbuffers : u.proxyBuffers = some buffers)
    (h : 0 < buffers.number) : ∃ number bufferSize firstSize busySize,
      balancedSizes u buffers = [bufferSize, firstSize, busySize] ∧ 2 ≤ number ∧
      balanceProxiesForUpstreams u true = { u with
        proxyBuffers := some { number, size := ofList (bytesToSizeString bufferSize) }
        proxyBufferSize := ofList (bytesToSizeString firstSize)
        proxyBusyBuffersSize := ofList (bytesToSizeString busySize) } := by
  have hpb := normalizedBuffers_ne_nil u h
  rcases hnorm : normalizedBuffers u buffers with ⟨pb, pbs, pbbs⟩
  rw [hnorm] at hpb
  obtain ⟨hlo, hhi⟩ := balancedBytes_number pb pbs pbbs
  rcases hbytes : balancedBytes pb pbs pbbs with ⟨number, bufferSize, firstSize, busySize⟩
  rw [hbytes] at hlo hhi
  have hvalues : balanceProxyValues pb pbs pbbs true =
      (ofNat number ++ ' ' :: bytesToSizeString bufferSize, bytesToSizeString firstSize,
        bytesToSizeString busySize) := by
    simp only [balanceProxyValues, hbytes]
    rw [if_neg (by simp [hpb])]
  refine ⟨min number maxInt32, bufferSize, firstSize, busySize, ?_, ?_, ?_⟩
  · simp [balancedSizes, hnorm, hbytes]
  · simp only [maxInt32]
    simp only at hlo
    omega
  · simp only [balanceProxiesForUpstreams, hbuffers, hnorm, hvalues, fields_balanced,
      parseUint_ofNat (show number < 2 ^ 64 by simp only at hhi; omega)]
    rfl

theorem balanceProxiesForUpstreams_off : balanceProxiesForUpstreams u false = u := by
  unfold balanceProxiesForUpstreams
  split <;> rfl

theorem balanceProxiesForUpstreams_none {u : Upstream} (h : u.proxyBuffers = none) (on : Bool) :
    balanceProxiesForUpstreams u on = u := by
  simp only [balanceProxiesForUpstreams, h]

@[simp] theorem name_balanceProxiesForUpstreams (on : Bool) :
    (balanceProxiesForUpstreams u on).name = u.name := by
  unfold balanceProxiesForUpstreams
  split
  · rfl
  · split <;> rfl

namespace VirtualServerValidator

variable (vsv : VirtualServerValidator) {u : Upstream} {path : String}
  (h : vsv.validateUpstream u path = [])
include h

theorem number_pos_of_accepted (hbuffers : u.proxyBuffers = some buffers) : 0 < buffers.number := by
  simp only [validateUpstream, validateBufferSizes, hbuffers, validateBuffer,
    append_eq_nil_iff] at h
  have hnumber := h.1.2.1.1.1
  by_contra hneg
  rw [if_pos (by omega)] at hnumber
  cases hnumber

/-- Only the checks of the sizes see a change of the sizes. -/
theorem validateUpstream_sizes (proxyBuffers : Option UpstreamBuffers)
    (proxyBufferSize proxyBusyBuffersSize : String) :
    vsv.validateUpstream { u with proxyBuffers, proxyBufferSize, proxyBusyBuffersSize } path = [] ↔
      validateBufferSizes { u with proxyBuffers, proxyBufferSize, proxyBusyBuffersSize } path =
        [] := by
  simp only [validateUpstream, append_eq_nil_iff] at h ⊢
  exact ⟨fun hall => hall.1.2, fun hsizes => ⟨⟨h.1.1, hsizes⟩, h.2⟩⟩

theorem validateUpstream_balanced (on : Bool) :
    vsv.validateUpstream (balanceProxiesForUpstreams u on) path = [] ↔
      (on = true → fitsUnits u = true) := by
  cases on with
  | false => simp [balanceProxiesForUpstreams_off, h]
  | true =>
    cases hbuffers : u.proxyBuffers with
    | none => simp [balanceProxiesForUpstreams_none hbuffers, h, fitsUnits, hbuffers]
    | some buffers =>
      obtain ⟨number, bufferSize, firstSize, busySize, hsizes, hnumber, heq⟩ :=
        balanceProxiesForUpstreams_eq u hbuffers (vsv.number_pos_of_accepted h hbuffers)
      have hne : ofList (bytesToSizeString bufferSize) ≠ "" := by
        intro hempty
        have := congrArg String.toList hempty
        rw [toList_ofList] at this
        exact bytesToSizeString_ne_nil bufferSize this
      rw [heq, vsv.validateUpstream_sizes h]
      simp only [validateBufferSizes, validateBuffer, append_eq_nil_iff, hne, if_false,
        validateSize_bytesToSizeString, fitsUnits, hbuffers, hsizes, all_cons,
        all_nil, Bool.and_true, Bool.and_eq_true, Bool.not_eq_true', true_implies]
      rw [if_neg (by omega)]
      simp [and_assoc]

omit h

/-- Buffers of 1024m are written as 1g, a unit only offsets have. -/
example : fitsUnits
    { name := "tea", service := "tea-svc", port := 80
      proxyBuffers := some { number := 4, size := "1024m" } } = false := by
  decide +kernel

theorem validateUpstreams_balanced {upstreams : List Upstream}
    (h : (vsv.validateUpstreams upstreams path).1 = []) (on : Bool) :
    (vsv.validateUpstreams (upstreams.map (balanceProxiesForUpstreams · on)) path).1 = [] ↔
      (on = true → ∀ u ∈ upstreams, fitsUnits u = true) := by
  obtain ⟨hchecks, hnodup⟩ := vsv.validateUpstreams_eq_nil.mp h
  have hnames : (upstreams.map (balanceProxiesForUpstreams · on)).map Upstream.name =
      upstreams.map Upstream.name := by
    rw [map_map]
    exact map_congr_left fun u _ => name_balanceProxiesForUpstreams u on
  rw [validateUpstreams_eq_nil, hnames]
  simp only [hnodup, and_true, getElem?_map, Option.map_eq_some_iff]
  constructor
  · intro hall hon u hu
    obtain ⟨i, hi⟩ := getElem?_of_mem hu
    exact (vsv.validateUpstream_balanced (hchecks i u hi).2 on).mp (hall i _ ⟨u, hi, rfl⟩).2 hon
  · rintro hfits i v ⟨u, hu, rfl⟩
    rw [name_balanceProxiesForUpstreams, vsv.validateUpstream_balanced (hchecks i u hu).2]
    exact ⟨(hchecks i u hu).1, fun hon => hfits hon u (mem_of_getElem? hu)⟩

theorem names_validateUpstreams_balanced (upstreams : List Upstream) (on : Bool) :
    (vsv.validateUpstreams (upstreams.map (balanceProxiesForUpstreams · on)) path).2 =
      (vsv.validateUpstreams upstreams path).2 := by
  apply seen_distinctBy_map
  · exact fun u => name_balanceProxiesForUpstreams u on
  · intro i u
    rw [name_balanceProxiesForUpstreams]

theorem validateVirtualServer_balanced {vs : VirtualServer}
    (h : vsv.validateVirtualServer vs = none) (on : Bool) :
    vsv.validateVirtualServer { vs with spec := { vs.spec with
        upstreams := vs.spec.upstreams.map (balanceProxiesForUpstreams · on) } } = none ↔
      (on = true → ∀ u ∈ vs.spec.upstreams, fitsUnits u = true) := by
  simp only [validateVirtualServer, validateVirtualServerSpec, toAggregate_eq_none,
    names_validateUpstreams_balanced, append_eq_nil_iff] at h ⊢
  rw [vsv.validateUpstreams_balanced h.1.1.1.1.2]
  simp [h]

theorem validateVirtualServerRoute_balanced {vsr : VirtualServerRoute}
    (h : vsv.validateVirtualServerRoute vsr = none) (on : Bool) :
    vsv.validateVirtualServerRoute { vsr with spec := { vsr.spec with
        upstreams := vsr.spec.upstreams.map (balanceProxiesForUpstreams · on) } } = none ↔
      (on = true → ∀ u ∈ vsr.spec.upstreams, fitsUnits u = true) := by
  simp only [validateVirtualServerRoute, validateVirtualServerRouteSpec, toAggregate_eq_none,
    names_validateUpstreams_balanced, append_eq_nil_iff] at h ⊢
  rw [vsv.validateUpstreams_balanced h.1.2]
  simp [h]

end VirtualServerValidator

end IngressController.Validation
