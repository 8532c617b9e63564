import IngressController.Api.Policy
import IngressController.Library.GoPanic
import IngressController.Validation.Text

/-! # Wallarm settings

The checks of the `wallarm-*` annotations in `internal/configs/annotations.go` and of a Policy's
`wallarm` in `validation/policy.go`. A check that indexes a slice or a string is in `Option`:
`none` is a panic, and the inner `none` of an annotation check is a nil error. The errors of
annotation checks are only logged.
-/

namespace IngressController

open GoString GoPanic List

namespace Configs

variable (s : String)

def lower : String := String.ofList (toLower s.toList)

def isValidWallarmMode (mode : String) : Bool :=
  lower mode ∈ ["off", "monitoring", "safe_blocking", "block"]

variable (value : String)

def isValidWallarmModeAllowOverride : Bool :=
  lower value ∈ ["on", "off", "strict"]

def isValidOnOff : Bool := lower value ∈ ["on", "off"]

def wallarmParsers : List String :=
  ["cookie", "zlib", "htmljs", "json", "multipart", "base64", "percent", "urlenc", "xml", "jwt"]

def isValidWallarmParser (parser : String) : Bool := lower parser ∈ wallarmParsers

/-- Whether the value is a positive integer. -/
def validateApplicationID : Bool :=
  match parseInt s.toList with
  | none => false
  | some i => 0 < i

def isHexDigit (c : Char) : Bool :=
  isDigit c || ('a' ≤ c && c ≤ 'f') || ('A' ≤ c && c ≤ 'F')

/-- Hexadecimal groups of 8, 4, 4, 4 and 12 digits. -/
def partnerClientUUIDRegex : Bool :=
  let groups := s.toList.splitOn '-'
  groups.map length = [8, 4, 4, 4, 12] && groups.all (·.all isHexDigit)

def isLabelChar (c : Char) : Bool :=
  isDigit c || ('a' ≤ c && c ≤ 'z') || ('A' ≤ c && c ≤ 'Z') || c = '_' || c = '-'

def partnerClientLabelRegex : Bool := s ≠ "" && s.toList.all isLabelChar

def validateWallarmPartnerClientUUID : Option (Option String) :=
  let parts := split s ' '
  match parts.length with
  | 1 => do
      let uuid ← parts[0]?
      if !partnerClientUUIDRegex uuid then return some "value should be a valid UUID"
      return none
  | 2 => do
      let uuid ← parts[0]?
      if !partnerClientUUIDRegex uuid then return some "value should be a valid UUID"
      let label ← parts[1]?
      if !partnerClientLabelRegex label then
        return some "label should contain only alphanumerics, '-', and '_'"
      return none
  | _ => some (some "value should be a UUID optionally followed by a single label")

def isPageStart (c : Char) : Bool := c ∈ ['/', '&', '@', '$']

def validateBlockPageOption (optional : String) : Option (Option String) :=
  let optionalSplit := split optional '='
  if optionalSplit.length ≠ 2 then
    some (some ("invalid block page optional param format \"" ++ optional ++ "\""))
  else do
    let optionalKey ← optionalSplit[0]?
    let optionalValue ← optionalSplit[1]?
    if optionalKey = "response_code" then
      if (parseInt optionalValue.toList).isNone then
        return some ("invalid response_code value \"" ++ optionalValue ++ "\"")
      return none
    else if optionalKey = "type" then
      firstError (fun typeValue =>
        if typeValue ∈ ["acl_ip", "acl_source", "attack"] then some none
        else some (some ("invalid type value \"" ++ typeValue ++ "\""))) (split optionalValue ',')
    else return some ("invalid block page optional param name \"" ++ optionalKey ++ "\"")

def validateBlockPageValue : Option (Option String) := do
  let valueSplit := split value ' '
  let page ← valueSplit[0]?
  let first ← page.toList[0]?
  if !isPageStart first then return some ("invalid block page format \"" ++ page ++ "\"")
  if valueSplit.length = 1 then return none
  firstError validateBlockPageOption (valueSplit.drop 1)

def validateBlockPage : Option (Option String) :=
  if s = "" then some none else firstError validateBlockPageValue (split s ';')

end Configs

namespace Validation

open FieldErrors

def validateWallarmParserDisable (parserDisable : List String) (path : String) : ErrorList :=
  each (fun i parser =>
    if Configs.lower parser ∈ Configs.wallarmParsers then []
    else [invalid (index path i) parser
      ("invalid parser name. Allowed values: " ++ prettyString Configs.wallarmParsers)])
    parserDisable

def validateWallarmPartnerClientUUID (value path : String) : Option ErrorList :=
  let parts := split value ' '
  match parts.length with
  | 1 => do
      let uuid ← parts[0]?
      return if !Configs.partnerClientUUIDRegex uuid then
        [invalid path value "must be a valid UUID"] else []
  | 2 => do
      let uuid ← parts[0]?
      let label ← parts[1]?
      return (if !Configs.partnerClientUUIDRegex uuid then
          [invalid path value "must be a valid UUID"] else []) ++
        if !Configs.partnerClientLabelRegex label then
          [invalid path value "label must contain only alphanumerics, '-', and '_'"] else []
  | _ => some [invalid path value "must be a UUID optionally followed by a single label"]

/-- One option without the white space around it; an empty one is skipped. -/
def validateWallarmBlockPageOption (path optional : String) : Option ErrorList :=
  let optional := String.ofList (trimSpace optional.toList)
  if optional = "" then some []
  else
    let optionalSplit := split optional '='
    if optionalSplit.length ≠ 2 then
      some [invalid path optional "invalid block page parameter format, expected key=value"]
    else do
      let optionalKey ← optionalSplit[0]?
      let optionalValue ← optionalSplit[1]?
      if optionalKey = "response_code" then
        return if (parseInt optionalValue.toList).isNone then
          [invalid path optionalValue "response_code must be a valid integer"] else []
      else if optionalKey = "type" then
        return (split optionalValue ',').flatMap fun typeValue =>
          if typeValue ∈ ["acl_ip", "acl_source", "attack"] then []
          else [invalid path typeValue
            "invalid type value. Allowed values: acl_ip, acl_source, attack"]
      else
        return [invalid path optionalKey
          "invalid block page parameter. Allowed parameters: response_code, type"]

def validateWallarmBlockPageValue (path value : String) : Option ErrorList :=
  let value := String.ofList (trimSpace value.toList)
  if value = "" then some []
  else do
    let valueSplit := split value ' '
    let page ← valueSplit[0]?
    let badStart ← if page.toList.length = 0 then some true
      else page.toList[0]?.map fun first => !Configs.isPageStart first
    if badStart then return [invalid path page "block page must start with /, &, @, or $"]
    return (← (valueSplit.drop 1).mapM (validateWallarmBlockPageOption path)).flatten

def validateWallarmBlockPage (blockPage path : String) : Option ErrorList :=
  if blockPage = "" then some []
  else do return (← (split blockPage ';').mapM (validateWallarmBlockPageValue path)).flatten

/-- The check of a text that may be left out. -/
def ifProvided (value : String) (check : String → Option ErrorList) : Option ErrorList :=
  if value ≠ "" then check value else some []

def validateWallarm (wallarm : Wallarm) (path : String) : Option ErrorList := do
  let mode := if wallarm.mode = "" then [required (child path "mode") "mode is required"] else []
  let parsers := validateWallarmParserDisable wallarm.parserDisable (child path "parserDisable")
  let blockPage ← ifProvided wallarm.blockPage fun value =>
    validateWallarmBlockPage value (child path "blockPage")
  let uuid ← ifProvided wallarm.partnerClientUUID fun value =>
    validateWallarmPartnerClientUUID value (child path "partnerClientUUID")
  return mode ++ parsers ++ blockPage ++ uuid

end Validation

namespace Configs

/-- `response_code=` with an integer or `type=` with a list of request types. -/
def isBlockPageOption (optional : String) : Bool :=
  match split optional '=' with
  | [key, value] =>
    (key = "response_code" && (parseInt value.toList).isSome) ||
      (key = "type" && (split value ',').all (· ∈ ["acl_ip", "acl_source", "attack"]))
  | _ => false

/-- A page followed by options, one blank between two words. -/
def isBlockPagePiece (piece : String) : Bool :=
  match split piece ' ' with
  | page :: options => page.toList.head?.any isPageStart && options.all isBlockPageOption
  | [] => false

theorem typeCheck_ok (values : List String) :
    firstError (fun typeValue : String =>
        if typeValue ∈ ["acl_ip", "acl_source", "attack"] then some none
        else some (some ("invalid type value \"" ++ typeValue ++ "\""))) values = some none ↔
      values.all (· ∈ ["acl_ip", "acl_source", "attack"]) = true := by
  rw [firstError_eq_ok, all_eq_true]
  refine forall₂_congr fun v _ => ?_
  by_cases hv : v ∈ ["acl_ip", "acl_source", "attack"] <;> simp [hv]

theorem validateBlockPageOption_spec (optional : String) :
    (validateBlockPageOption optional).isSome = true ∧
      (validateBlockPageOption optional = some none ↔ isBlockPageOption optional = true) := by
  unfold validateBlockPageOption isBlockPageOption
  match hsplit : split optional '=' with
  | [key, value] =>
    by_cases hcode : key = "response_code"
    · cases hvalue : parseInt value.toList <;> simp [hcode, hvalue]
    by_cases htype : key = "type"
    · simp only [htype]
      constructor
      · simpa using isSome_firstError fun v _ => by split_ifs <;> rfl
      · simpa using typeCheck_ok (split value ',')
    · simp [hcode, htype]
  | [] | [_] | _ :: _ :: _ :: _ => simp

theorem validateBlockPageValue_ok (value : String) :
    validateBlockPageValue value = some none ↔ isBlockPagePiece value = true := by
  unfold validateBlockPageValue isBlockPagePiece
  cases hsplit : split value ' ' with
  | nil => exact absurd hsplit (split_ne_nil value ' ')
  | cons page options =>
    cases hpage : page.toList with
    | nil => simp [hpage]
    | cons c cs =>
      cases hc : isPageStart c with
      | false => simp [hpage, hc]
      | true =>
        have hoptions : firstError validateBlockPageOption options = some none ↔
            options.all isBlockPageOption = true := by
          rw [firstError_eq_ok, all_eq_true]
          exact forall₂_congr fun o _ => (validateBlockPageOption_spec o).2
        cases options with
        | nil => simp [hpage, hc]
        | cons o os => simpa [hpage, hc] using hoptions

/-- The first byte of the page is read even if there is none. -/
theorem validateBlockPageValue_panic (value : String) :
    validateBlockPageValue value = none ↔ ∀ c ∈ value.toList.head?, c = ' ' := by
  obtain ⟨pieces, hsplit⟩ := splitOn_eq_takeWhile_cons ' ' value.toList
  unfold validateBlockPageValue split
  rw [hsplit]
  cases hvalue : value.toList with
  | nil => simp
  | cons c cs =>
    by_cases hc : c = ' '
    · simp [hc]
    have hoptions := isSome_firstError (l := pieces.map String.ofList)
      fun o _ => (validateBlockPageOption_spec o).1
    rw [Option.isSome_iff_ne_none] at hoptions
    cases hstart : isPageStart c with
    | false => simp [hc, hstart]
    | true =>
      cases pieces with
      | nil => simp [hc, hstart]
      | cons o os => simpa [hc, hstart] using hoptions

variable (s : String)

theorem validateBlockPage_ok : validateBlockPage s = some none ↔
      s = "" ∨ (split s ';').all isBlockPagePiece = true := by
  unfold validateBlockPage
  by_cases hs : s = ""
  · simp [hs]
  · rw [if_neg hs, firstError_eq_ok, all_eq_true]
    simp only [hs, false_or]
    exact forall₂_congr fun v _ => validateBlockPageValue_ok v

/-- A piece without a page that no rejected piece stands before. -/
def hasUncheckedPage (s : String) : Prop :=
  ∃ before piece after, split s ';' = before ++ piece :: after ∧
    (∀ p ∈ before, isBlockPagePiece p = true) ∧ ∀ c ∈ piece.toList.head?, c = ' '

theorem validateBlockPage_panic : validateBlockPage s = none ↔ s ≠ "" ∧ hasUncheckedPage s := by
  unfold validateBlockPage hasUncheckedPage
  by_cases hs : s = ""
  · simp [hs]
  rw [if_neg hs, firstError_eq_panic]
  simp only [ne_eq, hs, not_false_eq_true, true_and]
  constructor
  · rintro ⟨before, piece, after, heq, hbefore, hpiece⟩
    exact ⟨before, piece, after, heq, fun p hp => (validateBlockPageValue_ok p).mp (hbefore p hp),
      (validateBlockPageValue_panic piece).mp hpiece⟩
  · rintro ⟨before, piece, after, heq, hbefore, hpiece⟩
    exact ⟨before, piece, after, heq, fun p hp => (validateBlockPageValue_ok p).mpr (hbefore p hp),
      (validateBlockPageValue_panic piece).mpr hpiece⟩

end Configs

namespace Validation

open FieldErrors Configs

def trimmed (s : String) : String := String.ofList (trimSpace s.toList)

/-- An option of a block page with white space around it, or nothing but white space. -/
def isPaddedOption (optional : String) : Bool :=
  trimmed optional = "" || isBlockPageOption (trimmed optional)

/-- A page and options with white space around them, or nothing but white space. -/
def isPaddedPiece (piece : String) : Bool :=
  trimmed piece = "" ||
    match split (trimmed piece) ' ' with
    | page :: options => page.toList.head?.any isPageStart && options.all isPaddedOption
    | [] => false

theorem validateWallarmBlockPageOption_spec (path optional : String) :
    ∃ errs, validateWallarmBlockPageOption path optional = some errs ∧
      (errs = [] ↔ isPaddedOption optional = true) := by
  unfold validateWallarmBlockPageOption isPaddedOption trimmed
  set text := String.ofList (trimSpace optional.toList) with htext
  by_cases hempty : text = ""
  · exact ⟨[], by simp [hempty], by simp [hempty]⟩
  simp only [hempty, if_false, decide_false, Bool.false_or]
  unfold isBlockPageOption
  match hsplit : split text '=' with
  | [key, value] =>
    by_cases hcode : key = "response_code"
    · cases hvalue : parseInt value.toList <;> simp [hcode, hvalue]
    by_cases htype : key = "type"
    · refine ⟨_, by simp [htype]; rfl, ?_⟩
      simp only [flatMap_eq_nil_iff, ite_eq_left_iff, cons_ne_nil, imp_false, not_not,
        htype, decide_true, Bool.true_and]
      simp
    · simp [hcode, htype]
  | [] | [_] | _ :: _ :: _ :: _ => simp

theorem validateWallarmBlockPageValue_spec (path value : String) :
    ∃ errs, validateWallarmBlockPageValue path value = some errs ∧
      (errs = [] ↔ isPaddedPiece value = true) := by
  unfold validateWallarmBlockPageValue isPaddedPiece trimmed
  set text := String.ofList (trimSpace value.toList) with htext
  by_cases hempty : text = ""
  · exact ⟨[], by simp [hempty], by simp [hempty]⟩
  simp only [hempty, if_false, decide_false, Bool.false_or]
  cases hsplit : split text ' ' with
  | nil => exact absurd hsplit (split_ne_nil text ' ')
  | cons page options =>
    cases hpage : page.toList with
    | nil =>
      have hnil : page = "" := String.toList_inj.mp (by simpa using hpage)
      simp [hnil]
    | cons c cs =>
      have hcons : page ≠ "" := by
        rintro rfl
        simp at hpage
      cases hc : isPageStart c with
      | false => simp [hpage, hc]
      | true =>
        obtain ⟨errss, hmap, hgood⟩ := collect_eq_nil (l := options)
          fun o _ => validateWallarmBlockPageOption_spec path o
        refine ⟨errss.flatten, by simp [hpage, hc, hmap, hcons], ?_⟩
        simpa [hpage, hc] using hgood

theorem validateWallarmBlockPage_spec (blockPage path : String) :
    ∃ errs, validateWallarmBlockPage blockPage path = some errs ∧
      (errs = [] ↔ blockPage = "" ∨ (split blockPage ';').all isPaddedPiece = true) := by
  unfold validateWallarmBlockPage
  by_cases hempty : blockPage = ""
  · exact ⟨[], by simp [hempty], by simp [hempty]⟩
  · obtain ⟨errss, hmap, hgood⟩ := collect_eq_nil (l := split blockPage ';')
      fun v _ => validateWallarmBlockPageValue_spec path v
    refine ⟨errss.flatten, by simp [hempty, hmap], ?_⟩
    rw [hgood, all_eq_true]
    simp [hempty]

/-- A UUID, or a UUID and a label. -/
def isPartnerClientUUID (value : String) : Bool :=
  match split value ' ' with
  | [uuid] => partnerClientUUIDRegex uuid
  | [uuid, label] => partnerClientUUIDRegex uuid && partnerClientLabelRegex label
  | _ => false

variable (value : String)

theorem partnerClientUUID_spec (path : String) :
    (∃ errs, validateWallarmPartnerClientUUID value path = some errs ∧
      (errs = [] ↔ isPartnerClientUUID value = true)) ∧
    (Configs.validateWallarmPartnerClientUUID value).isSome = true ∧
      (Configs.validateWallarmPartnerClientUUID value = some none ↔
        isPartnerClientUUID value = true) := by
  unfold validateWallarmPartnerClientUUID Configs.validateWallarmPartnerClientUUID
    isPartnerClientUUID
  match hsplit : split value ' ' with
  | [] => simp
  | [uuid] => cases hu : partnerClientUUIDRegex uuid <;> simp [hu]
  | [uuid, label] =>
    cases hu : partnerClientUUIDRegex uuid <;>
      cases hl : partnerClientLabelRegex label <;> simp [hu, hl]
  | _ :: _ :: _ :: _ => simp

theorem ifProvided_spec {good : Prop} (check : String → Option ErrorList)
    (h : ∃ errs, check value = some errs ∧ (errs = [] ↔ good)) :
    ∃ errs, ifProvided value check = some errs ∧ (errs = [] ↔ value = "" ∨ good) := by
  by_cases hempty : value = ""
  · exact ⟨[], by simp [ifProvided, hempty], by simp [hempty]⟩
  · simpa [ifProvided, hempty] using h

theorem validateWallarmParserDisable_eq_nil (parserDisable : List String) (path : String) :
    validateWallarmParserDisable parserDisable path = [] ↔
      ∀ parser ∈ parserDisable, isValidWallarmParser parser = true := by
  rw [validateWallarmParserDisable, each_eq_nil]
  constructor
  · intro h parser hparser
    obtain ⟨i, hi⟩ := getElem?_of_mem hparser
    simpa [isValidWallarmParser] using h i parser hi
  · intro h i parser hi
    simpa [isValidWallarmParser] using h parser (mem_of_getElem? hi)

/-- Validating a Wallarm setting never panics, and accepts exactly these. -/
theorem validateWallarm_spec {wallarm : Wallarm} {path : String} :
    (validateWallarm wallarm path).isSome ∧
      (validateWallarm wallarm path = some [] ↔ wallarm.mode ≠ "" ∧
        (∀ parser ∈ wallarm.parserDisable, isValidWallarmParser parser = true) ∧
        (wallarm.blockPage = "" ∨ (split wallarm.blockPage ';').all isPaddedPiece = true) ∧
        (wallarm.partnerClientUUID = "" ∨
          isPartnerClientUUID wallarm.partnerClientUUID = true)) := by
  obtain ⟨pageErrs, hpage, hpageGood⟩ := ifProvided_spec wallarm.blockPage
    (fun value => validateWallarmBlockPage value (child path "blockPage"))
    (validateWallarmBlockPage_spec _ _)
  obtain ⟨uuidErrs, huuid, huuidGood⟩ := ifProvided_spec wallarm.partnerClientUUID
    (fun value => validateWallarmPartnerClientUUID value (child path "partnerClientUUID"))
    (partnerClientUUID_spec _ _).1
  simp only [validateWallarm, hpage, huuid]
  refine ⟨rfl, Option.some_inj.trans ?_⟩
  rw [append_eq_nil_iff, append_eq_nil_iff, append_eq_nil_iff,
    validateWallarmParserDisable_eq_nil, hpageGood, huuidGood, or_self_left]
  by_cases hmode : wallarm.mode = "" <;> simp [hmode, and_assoc]

end Validation

end IngressController
