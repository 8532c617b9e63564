import IngressController.Api.VirtualServer
import IngressController.Library.GoPanic
import IngressController.Validation.Text

/-! # Values of annotations

The parsers of `internal/configs/parsing_helpers.go` and of `version1/header_parsing_helper.go`
that `parseAnnotations` calls. Those that index a slice are in `Option`, where `none` is a panic,
and are compared with the parsers of the validators. The inner `none` of a result is an error,
whose text is only logged.
-/

namespace IngressController.Configs

open GoString Validation List Option
open String (ofList)
open GoPanic (indexIf)

/-- The white space after a unit. -/
def afterUnit (units : List (List (List Char))) (cs : List Char) : List Char :=
  if units = [] then cs else cs.dropWhile isRegexSpace

section Times

variable {unit : List (List Char)} {units : List (List (List Char))} {cs : List Char}
  {groups : List (List Char)}

theorem matchTime_cons_eq (unit : List (List Char)) (units : List (List (List Char)))
    (cs : List Char) : matchTime (unit :: units) cs =
      ((matchTime units (afterUnit units cs)).map ([] :: ·)).or
        (if cs.takeWhile isDigit = [] then none
        else unit.findSome? fun suffix =>
          if suffix.isPrefixOf (cs.dropWhile isDigit) then
            (matchTime units (afterUnit units ((cs.dropWhile isDigit).drop suffix.length))).map
              ((cs.takeWhile isDigit ++ suffix) :: ·)
          else none) := by
  rw [matchTime]
  split
  · rename_i rest h
    rw [show matchTime units (afterUnit units cs) = some rest from h]
    rfl
  · rename_i h
    rw [show matchTime units (afterUnit units cs) = none from h]
    rfl

/-- A unit is skipped, or a number with one of its names is read. -/
theorem matchTime_cons (h : matchTime (unit :: units) cs = some groups) :
    (∃ rest, matchTime units (afterUnit units cs) = some rest ∧ groups = [] :: rest) ∨
      ∃ digits suffix tail rest, cs = digits ++ suffix ++ tail ∧ digits ≠ [] ∧
        (∀ c ∈ digits, isDigit c = true) ∧ EndsNumber (suffix ++ tail) ∧ suffix ∈ unit ∧
        matchTime units (afterUnit units tail) = some rest ∧
        groups = (digits ++ suffix) :: rest := by
  rw [matchTime_cons_eq, or_eq_some_iff, map_eq_some_iff] at h
  obtain ⟨rest, hrest, rfl⟩ | ⟨-, h⟩ := h
  · exact .inl ⟨rest, hrest, rfl⟩
  split_ifs at h with hdigits
  obtain ⟨suffix, hmem, hsuffix⟩ := exists_of_findSome?_eq_some h
  split_ifs at hsuffix with hhead
  obtain ⟨tail, htail⟩ := isPrefixOf_iff_prefix.mp hhead
  obtain ⟨rest, hrest, rfl⟩ := map_eq_some_iff.mp hsuffix
  rw [← htail, drop_left] at hrest
  refine .inr ⟨_, suffix, tail, rest, ?_, hdigits, fun c hc => ?_, ?_, hmem, hrest, rfl⟩
  · rw [append_assoc, htail, takeWhile_append_dropWhile]
  · exact mem_takeWhile_imp hc
  · rw [htail]
    intro c hc
    have hnot := head?_dropWhile_not isDigit cs
    rw [mem_def.mp hc] at hnot
    exact hnot

theorem length_matchTime (h : matchTime units cs = some groups) :
    groups.length = units.length := by
  induction units generalizing cs groups with
  | nil =>
    rw [matchTime] at h
    split_ifs at h
    cases h
    rfl
  | cons unit units ih =>
    obtain ⟨rest, hrest, rfl⟩ | ⟨_, _, _, rest, -, -, -, -, -, hrest, rfl⟩ := matchTime_cons h <;>
      simp [ih hrest]

/-- A matched text has all eight groups. -/
theorem groups_of_match (h : matchTime timeUnits cs = some groups) :
    ∃ a b c d e f g h, groups = [a, b, c, d, e, f, g, h] := by
  have hlength : groups.length = 8 := length_matchTime h
  match groups, hlength with
  | [a, b, c, d, e, f, g, h], _ => exact ⟨a, b, c, d, e, f, g, h, rfl⟩

end Times

/-- The submatches of the expression are the whole text and the groups. -/
def parseTime (s : String) : Option (Option String) :=
  if trimSpace s.toList = [] then some none
  else
    match matchTime timeUnits s.toList with
    | none => some none
    | some groups => do
        let units := s.toList :: groups
        let years ← units[1]?
        let months ← units[2]?
        let weeks ← units[3]?
        let days ← units[4]?
        let hours ← units[5]?
        let mins ← units[6]?
        let secs ← units[7]?
        let millis ← units[8]?
        let secs := if secs ≠ [] ∧ secs.getLast? ≠ some 's' then secs ++ ['s'] else secs
        return some (ofList
          (years ++ months ++ weeks ++ days ++ hours ++ mins ++ secs ++ millis))

theorem parseTime_eq (s : String) : parseTime s = some (Validation.parseTime s) := by
  unfold parseTime Validation.parseTime
  split_ifs with hblank
  · rfl
  cases hmatch : matchTime timeUnits s.toList with
  | none => rfl
  | some groups =>
    obtain ⟨a, b, c, d, e, f, g, h, rfl⟩ := groups_of_match hmatch
    simp [zipIdx]

section LoadBalancing

variable (lib : Libraries) (method : String)

def validateHashLBMethod : Option (Except String String) :=
  match validateDirectiveValue (method.toList.flatMap String.utf8EncodeChar) with
  | some err => some (.error (invalidLBMethod lib method ++ ": " ++ err))
  | none =>
    if contains method '\t' then some (.error (invalidLBMethod lib method))
    else do
      let keyWords := split method ' '
      let first ← keyWords[0]?
      let consistent ← indexIf (keyWords.length = 3) keyWords 2 ""
      return if first = "hash" ∧ (keyWords.length = 2 ∨
          (keyWords.length = 3 ∧ consistent = "consistent")) then .ok method
        else .error (invalidLBMethod lib method)

theorem validateHashLBMethod_eq :
    validateHashLBMethod lib method = some (Validation.validateHashLBMethod lib method) := by
  unfold validateHashLBMethod Validation.validateHashLBMethod
  cases validateDirectiveValue (method.toList.flatMap String.utf8EncodeChar) with
  | some err => rfl
  | none =>
    by_cases htab : contains method '\t' = true
    · simp only [htab, if_true]
    simp only [htab]
    match hsplit : split method ' ' with
    | [] => exact absurd hsplit (split_ne_nil method ' ')
    | [first] => simp [indexIf]
    | [first, key] => by_cases h : first = "hash" <;> simp [indexIf, h]
    | [first, key, consistent] =>
      by_cases h : first = "hash" <;> by_cases h' : consistent = "consistent" <;>
        simp [indexIf, h, h']
    | _ :: _ :: _ :: _ :: _ => simp [indexIf]

def parseLBMethodAmong (validInput : List String) (method : String) :
    Option (Except String String) :=
  let method := ofList (trimSpace method.toList)
  if method = "round_robin" then some (.ok "")
  else if hasPrefix method "hash" then validateHashLBMethod lib method
  else if method ∈ validInput then some (.ok method)
  else some (.error (invalidLBMethod lib method))

def parseLBMethod : Option (Except String String) :=
  parseLBMethodAmong lib nginxLBValidInput method

def parseLBMethodForPlus : Option (Except String String) :=
  parseLBMethodAmong lib nginxPlusLBValidInput method

theorem parseLBMethodAmong_eq (validInput : List String) (method : String) :
    parseLBMethodAmong lib validInput method =
      some (Validation.parseLBMethodAmong lib validInput method) := by
  unfold parseLBMethodAmong Validation.parseLBMethodAmong
  simp only [validateHashLBMethod_eq]
  split_ifs <;> rfl

/-- `ParseHeaderList`: the trimmed names, if all of them are header names. -/
def parseHeaderList (s : String) : Option (List String) :=
  let names := (split s ',').map fun name => ofList (trimSpace name.toList)
  if names.flatMap lib.isHTTPHeaderName = [] then some names else none

end LoadBalancing

/-- The submatches of `^(\d+)(r/s|r/m)$`. -/
def matchRate (cs : List Char) : Option (List (List Char)) :=
  let digits := cs.takeWhile isDigit
  let unit := cs.dropWhile isDigit
  if digits ≠ [] ∧ unit ∈ [['r', '/', 's'], ['r', '/', 'm']] then some [cs, digits, unit] else none

def parseRequestRate (s : String) : Option (Option String) :=
  let s := trimSpace s.toList
  match matchRate s with
  | none => some none
  | some groups => do
      let digits ← groups[1]?
      return match parseInt digits with
        | none => none
        | some number => if number ≤ 0 then none else some (ofList s)

theorem isSome_parseRequestRate (s : String) : (parseRequestRate s).isSome := by
  unfold parseRequestRate matchRate
  dsimp only
  split
  · rfl
  · rename_i groups hgroups
    split_ifs at hgroups
    cases hgroups
    simp

/-- One entry of a `proxy-set-headers` value; an entry without a name is skipped. -/
def parseProxySetHeader (entry : String) : Option (Option Header) :=
  let entry := trimSpace entry.toList
  if entry = [] then some none
  else do
    let parts := splitAtMost ':' 1 entry
    let first ← parts[0]?
    let second ← indexIf (parts.length = 2) parts 1 []
    let name := trimSpace first
    return if name = [] then none
      else
        let value := if parts.length = 2 then ofList (trimSpace second)
          else "$http_" ++ ofList (toLower (name.map fun c => if c = '-' then '_' else c))
        some { name := ofList name, value }

variable ( annotation : String)

def parseProxySetHeaders : Option (List Header) := do
  let headers ← (split annotation ',').mapM parseProxySetHeader
  return headers.reduceOption

variable (entry : String)

/-- One entry of an `add-header` value. -/
def parseAddHeader : Option (Option AddHeader) :=
  let entry := trimSpace entry.toList
  if entry = [] then some none
  else do
    let parts := splitAtMost ':' 2 entry
    let first ← parts[0]?
    let second ← indexIf (2 ≤ parts.length) parts 1 []
    let third ← indexIf (parts.length = 3) parts 2 []
    let name := trimSpace first
    return if name = [] then none
      else some
        { header := { name := ofList name, value := ofList (trimSpace second) }
          always := equalFold (trimSpace third) "always".toList }

def parseAddHeaders : Option (List AddHeader) := do
  let headers ← (split annotation ',').mapM parseAddHeader
  return headers.reduceOption

theorem isSome_parseProxySetHeader : (parseProxySetHeader entry).isSome := by
  unfold parseProxySetHeader
  dsimp only
  split
  · rfl
  obtain ⟨first, rest, hparts⟩ := List.exists_cons_of_ne_nil
    (splitAtMost_ne_nil ':' 1 (trimSpace entry.toList))
  rw [hparts]
  obtain ⟨second, hsecond⟩ := GoPanic.exists_indexIf (first :: rest) 1 []
    fun (hlength : (first :: rest).length = 2) => by omega
  simp only [List.getElem?_cons_zero, hsecond, Option.bind_eq_bind, Option.bind_some,
    Option.pure_def, Option.isSome_some]

theorem isSome_parseAddHeader : (parseAddHeader entry).isSome := by
  unfold parseAddHeader
  dsimp only
  split
  · rfl
  obtain ⟨first, rest, hparts⟩ := List.exists_cons_of_ne_nil
    (splitAtMost_ne_nil ':' 2 (trimSpace entry.toList))
  rw [hparts]
  obtain ⟨second, hsecond⟩ := GoPanic.exists_indexIf (first :: rest) 1 []
    fun (hlength : 2 ≤ (first :: rest).length) => by omega
  obtain ⟨third, hthird⟩ := GoPanic.exists_indexIf (first :: rest) 2 []
    fun (hlength : (first :: rest).length = 3) => by omega
  simp only [List.getElem?_cons_zero, hsecond, hthird, Option.bind_eq_bind, Option.bind_some,
    Option.pure_def, Option.isSome_some]

theorem isSome_parseProxySetHeaders : (parseProxySetHeaders annotation).isSome := by
  obtain ⟨headers, hheaders⟩ := isSome_iff_exists.mp
    (GoPanic.isSome_mapM fun entry (_ : entry ∈ split annotation ',') =>
      isSome_parseProxySetHeader entry)
  simp [parseProxySetHeaders, hheaders]

theorem isSome_parseAddHeaders : (parseAddHeaders annotation).isSome := by
  obtain ⟨headers, hheaders⟩ := isSome_iff_exists.mp
    (GoPanic.isSome_mapM fun entry (_ : entry ∈ split annotation ',') =>
      isSome_parseAddHeader entry)
  simp [parseAddHeaders, hheaders]

/-- `strconv.ParseInt(value, 10, 32)` and a positive number. -/
def parsePort (value : String) : Option Int :=
  match parseInt value.toList with
  | none => none
  | some port => if 0 < port ∧ port < 2 ^ 31 then some port else none

/-- An invalid port makes the list invalid. -/
def parsePortList (s : String) : Option (List Int) := (split s ',').mapM parsePort

def parseHTTPRedirectCode (code : String) : Option Int :=
  match parseInt code.toList with
  | none => none
  | some redirectCode => if redirectCode ∈ [301, 302, 307, 308] then some redirectCode else none

def customHTTPErrorMaxCodes : Nat := 300

def nginxErrorPageRejectedCodes : List Nat := [499]

def isASCIIDigits (cs : List Char) : Bool := cs ≠ [] && cs.all isDigit

/-- The codes from `start` on, without those NGINX rejects. -/
def expandHTTPErrorRange (start count : Nat) : List Nat :=
  (range' start count).filter (· ∉ nginxErrorPageRejectedCodes)

def parseCustomHTTPErrorToken (token : List Char) : Option (List Nat) :=
  if toLower token = "4xx".toList then some (expandHTTPErrorRange 400 100)
  else if toLower token = "5xx".toList then some (expandHTTPErrorRange 500 100)
  else if !isASCIIDigits token then none
  else
    match parseInt token with
    | none => none
    | some code =>
      if code < 300 ∨ 599 < code ∨ code.toNat ∈ nginxErrorPageRejectedCodes then none
      else some [code.toNat]

/-- The codes in order, each once. -/
def parseCustomHTTPErrors (value : String) : Option (List Nat) := do
  if trimSpace value.toList = [] then none
  else
    let tokens := ((split value ',').map fun raw => trimSpace raw.toList).filter (· ≠ [])
    let found ← tokens.mapM parseCustomHTTPErrorToken
    let codes := (range 600).filter (· ∈ found.flatten)
    if codes = [] ∨ customHTTPErrorMaxCodes < codes.length then none else some codes

example : parseCustomHTTPErrors "503, 404,404" = some [404, 503] := by decide +kernel

end IngressController.Configs
