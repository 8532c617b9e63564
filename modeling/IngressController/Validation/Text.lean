import IngressController.Library.FieldErrors
import IngressController.Library.GoString
import IngressController.Validation.Directive

/-! # Checks of texts

The parsers of `internal/configs/parsing_helpers.go` that validators call and the checks of
`common.go`. Regular expressions are written as functions on the characters they accept.
-/

namespace IngressController.Validation

open GoString FieldErrors

/-- The location modifiers in the order they are tried: `~*` before `~`. -/
def pathModifiers : List String := ["~*", "~", "^~", "="]

/-- A path without the white space between its modifier and its URI. -/
def normalizePath (path : String) : String :=
  match pathModifiers.find? (hasPrefix path) with
  | some modifier => modifier ++ String.ofList ((trimPrefix path modifier).dropWhile isSpace)
  | none => path

example : normalizePath "~*  /api" = "~*/api" := by decide

/-- Functions of the Kubernetes, Unicode and regexp2 libraries. A name check returns its messages,
compiling an expression its error. -/
structure Libraries where
  isDNS1123Label : String → List String
  isDNS1123Subdomain : String → List String
  isWildcardDNS1123Subdomain : String → List String
  isDNS1035Label : String → List String
  isQualifiedName : String → List String
  isValidLabelValue : String → List String
  isHTTPHeaderName : String → List String
  isPrint : Char → Bool
  compileRegexp : String → Option String

def Libraries.permissive : Libraries where
  isDNS1123Label _ := []
  isDNS1123Subdomain _ := []
  isWildcardDNS1123Subdomain _ := []
  isDNS1035Label _ := []
  isQualifiedName _ := []
  isValidLabelValue _ := []
  isHTTPHeaderName _ := []
  isPrint c := ' ' ≤ c ∧ c ≤ '~'
  compileRegexp _ := none

def inclusiveRangeError (lo hi : Int) : String :=
  "must be between " ++ toString lo ++ " and " ++ toString hi ++ ", inclusive"

def isInRange (value lo hi : Int) : List String :=
  if lo ≤ value ∧ value ≤ hi then [] else [inclusiveRangeError lo hi]

def isValidPortNum (port : Int) : List String := isInRange port 1 65535

def regexError (msg fmt : String) (examples : List String) : String :=
  let shown := examples.map fun e => "'" ++ e ++ "', "
  (if examples = [] then msg ++ " (" else msg ++ " (e.g. " ++ String.intercalate " or " shown) ++
    "regex used for validation is '" ++ fmt ++ "')"

def invalidAll (path value : String) (msgs : List String) : ErrorList :=
  msgs.map (invalid path value)

@[simp] theorem invalidAll_eq_nil {path value : String} {msgs : List String} :
    invalidAll path value msgs = [] ↔ msgs = [] := List.map_eq_nil_iff

/-- White space of a regular expression. -/
def isRegexSpace (c : Char) : Bool :=
  c = ' ' || c = '\t' || c = '\n' || c = '\r' || c = '\x0c'

/-- `\d+` followed by at most one of the units. -/
def isNumberWithUnit (units : List Char) (cs : List Char) : Bool :=
  let rest := cs.dropWhile isDigit
  cs.takeWhile isDigit ≠ [] && (rest = [] || (rest.length = 1 && rest.all units.contains))

def offsetFmt : String := "\\d+[kKmMgG]?"
def sizeFmt : String := "\\d+[kKmM]?"

variable (s : String)

def parseOffset : Option String :=
  let s := trimSpace s.toList
  if isNumberWithUnit ['k', 'K', 'm', 'M', 'g', 'G'] s then some (String.ofList s) else none

def parseSize : Option String :=
  let s := trimSpace s.toList
  if isNumberWithUnit ['k', 'K', 'm', 'M'] s then some (String.ofList s) else none

/-- The units of a time in order, each with the texts that may follow its digits. -/
def timeUnits : List (List (List Char)) :=
  [[['y']], [['M']], [['w']], [['d']], [['h']], [['m']], [['s'], []], [['m', 's']]]

/-- The groups of the time expression. A unit is skipped if the rest matches without it; white
space follows every unit but the last. -/
def matchTime : List (List (List Char)) → List Char → Option (List (List Char))
  | [], cs => if cs = [] then some [] else none
  | unit :: units, cs =>
    let next := fun cs => if units = [] then cs else cs.dropWhile isRegexSpace
    match matchTime units (next cs) with
    | some groups => some ([] :: groups)
    | none =>
      let digits := cs.takeWhile isDigit
      let rest := cs.dropWhile isDigit
      if digits = [] then none
      else unit.findSome? fun suffix =>
        if suffix.isPrefixOf rest then
          (matchTime units (next (rest.drop suffix.length))).map ((digits ++ suffix) :: ·)
        else none

/-- A time in normal form: seconds get their unit. -/
def parseTime : Option String :=
  if trimSpace s.toList = [] then none
  else
    (matchTime timeUnits s.toList).map fun groups =>
      String.ofList (groups.zipIdx.flatMap fun (group, i) =>
        if i = 6 ∧ group ≠ [] ∧ group.getLast? ≠ some 's' then group ++ ['s'] else group)

example : parseTime "1h 30m5" = some "1h30m5s" := by decide +kernel

def parseAddHeaderInherit (value : String) : Except String String :=
  let value := String.ofList (toLower (trimSpace value.toList))
  if value = "on" ∨ value = "off" ∨ value = "merge" then .ok value
  else .error "must be one of: 'on', 'off' or 'merge'"

section LoadBalancing

variable (lib : Libraries) (method : String)

def invalidLBMethod : String :=
  "invalid load balancing method: " ++ quote lib.isPrint method

def validateHashLBMethod : Except String String :=
  match validateDirectiveValue (method.toList.flatMap String.utf8EncodeChar) with
  | some err => .error (invalidLBMethod lib method ++ ": " ++ err)
  | none =>
    if contains method '\t' then .error (invalidLBMethod lib method)
    else
      match split method ' ' with
      | ["hash", _] => .ok method
      | ["hash", _, "consistent"] => .ok method
      | _ => .error (invalidLBMethod lib method)

def nginxLBValidInput : List String :=
  ["least_conn", "ip_hash", "random", "random two", "random two least_conn"]

def nginxPlusLBValidInput : List String :=
  ["least_conn", "ip_hash", "random", "random two", "random two least_conn",
    "random two least_time=header", "random two least_time=last_byte", "least_time header",
    "least_time last_byte", "least_time header inflight", "least_time last_byte inflight"]

def parseLBMethodAmong (validInput : List String) (method : String) : Except String String :=
  let method := String.ofList (trimSpace method.toList)
  if method = "round_robin" then .ok ""
  else if hasPrefix method "hash" then validateHashLBMethod lib method
  else if method ∈ validInput then .ok method
  else .error (invalidLBMethod lib method)

def parseLBMethod : Except String String :=
  parseLBMethodAmong lib nginxLBValidInput method

def parseLBMethodForPlus : Except String String :=
  parseLBMethodAmong lib nginxPlusLBValidInput method

end LoadBalancing

def escapedStringsFmt : String := "([^\"\\\\]|\\\\.)*"

def escapedStringsErrMsg : String :=
  "must have all '\"' (double quotes) escaped and must not end with an unescaped '\\' (backslash)"

/-- Characters outside `excluded`, or a backslash with a character that `follows` it. -/
def isEscapedText (excluded : List Char) (follows : Char → Bool) : List Char → Bool
  | [] => true
  | [c] => c ≠ '\\' && !excluded.contains c
  | c :: d :: rest =>
    if c = '\\' then follows d && isEscapedText excluded follows rest
    else !excluded.contains c && isEscapedText excluded follows (d :: rest)

/-- No dot of an expression matches a line feed. -/
def isAnyChar (c : Char) : Bool := c ≠ '\n'

def validateEscapedString (body : String) (examples : List String) : Option String :=
  if isEscapedText ['"'] isAnyChar body.toList then none
  else some (regexError escapedStringsErrMsg escapedStringsFmt examples)

def escapedErrors (path value : String) (examples : List String) : ErrorList :=
  invalidAll path value (validateEscapedString value examples).toList

/-- The texts between `$`-brace and the next closing brace. -/
def captureFrom : Option (List Char) → List Char → List String
  | _, [] => []
  | none, '$' :: '\x7b' :: rest => captureFrom (some []) rest
  | none, _ :: rest => captureFrom none rest
  | some name, c :: rest =>
    if c = '\x7d' then String.ofList name :: captureFrom none rest
    else captureFrom (some (name ++ [c])) rest

def captureVariables (s : String) : List String := captureFrom none s.toList

def prettyString (m : List String) : String := String.intercalate ", " m

def validateVariable (nVar : String) (validVars : List String) (path : String) : ErrorList :=
  if nVar ∈ validVars then []
  else [invalid path nVar ("'" ++ nVar ++
    "' contains an invalid NGINX variable. Accepted variables are: " ++ prettyString validVars)]

/-- `[_A-Za-z0-9]+`. -/
def isWord (s : String) : Bool :=
  s ≠ "" && s.toList.all fun c =>
    c = '_' || ('A' ≤ c && c ≤ 'Z') || ('a' ≤ c && c ≤ 'z') || isDigit c

def isCookieName (value : String) : List String :=
  if isWord value then []
  else [regexError "a valid cookie name must consist of alphanumeric characters or '_'"
    "[_A-Za-z0-9]+" ["my_cookie_123"]]

def isArgumentName (value : String) : List String :=
  if isWord value then []
  else [regexError "a valid argument name must consist of alphanumeric characters or '_'"
    "[_A-Za-z0-9]+" ["argument_123"]]

section Variables

variable (lib : Libraries) (isPlus : Bool)

/-- Underscores of a header-like variable stand for dashes. -/
def isValidSpecialHeaderLikeVariable (value : String) : List String :=
  if lib.isHTTPHeaderName (replaceAll value '_' '-') ≠ [] ∨ contains value '-' then
    ["a valid special variable must consists of alphanumeric characters or '_'"]
  else []

/-- The kind of a special variable and the name it is about. -/
def parseSpecialVariable (nVar : String) : Option (String × String) :=
  if hasPrefix nVar "jwt_header" || hasPrefix nVar "jwt_claim" then
    match splitAtMost '_' 2 nVar.toList with
    | [first, second, rest] => some (String.ofList (first ++ '_' :: second), String.ofList rest)
    | _ => none
  else
    match splitAtMost '_' 1 nVar.toList with
    | [first, rest] => some (String.ofList first, String.ofList rest)
    | _ => none

def validateSpecialVariable (nVar path : String) : ErrorList :=
  match parseSpecialVariable nVar with
  | none => [invalid path nVar "is invalid variable"]
  | some (name, value) =>
    if name = "arg" then invalidAll path nVar (isArgumentName value)
    else if name = "http" then invalidAll path nVar (isValidSpecialHeaderLikeVariable lib value)
    else if name = "cookie" then invalidAll path nVar (isCookieName value)
    else if name = "jwt_header" ∨ name = "jwt_claim" then
      if isPlus then invalidAll path nVar (isValidSpecialHeaderLikeVariable lib value)
      else [forbidden path "is only supported in NGINX Plus"]
    else if name = "apikey" then
      invalidAll path nVar (isValidSpecialHeaderLikeVariable lib value)
    else [invalid path nVar "unknown special variable"]

/-- Some `$` is not followed by a brace, or by no closing brace at all. -/
def hasBareDollar : List Char → Bool
  | [] => false
  | c :: rest =>
    (c = '$' && (rest.head? ≠ some '\x7b' || !rest.contains '\x7d')) || hasBareDollar rest

def validateStringWithVariables (str path : String) (specialVars validVars : List String) :
    ErrorList :=
  if hasSuffix str "$" then [invalid path str "must not end with $"]
  else if hasBareDollar str.toList then
    [invalid path str "variables must be enclosed in curly braces, for example $\x7bhost\x7d"]
  else
    (captureVariables str).flatMap fun nVar =>
      if specialVars.any (hasPrefix nVar) then validateSpecialVariable lib isPlus nVar path
      else validateVariable nVar validVars path

def validateEscapedStringWithVariables (body path : String)
    (specialValidVars validVars : List String) : ErrorList :=
  escapedErrors path body
      ["Hello World! \\n", "\\\"$\x7brequest_uri\x7d\\\" is unavailable. \\n"] ++
    validateStringWithVariables lib isPlus body path specialValidVars validVars

end Variables

def validateAddHeaderInherit (value path : String) : ErrorList :=
  match parseAddHeaderInherit value with
  | .error err => [invalid path value err]
  | .ok _ => []

def validateTime (time path : String) : ErrorList :=
  if time = "" ∨ (parseTime time).isSome then [] else [invalid path time "invalid time string"]

def offsetErrMsg : String :=
  "must consist of numeric characters followed by a valid size suffix. 'k|K|m|M|g|G"

def validateOffset (offset path : String) : ErrorList :=
  if offset = "" ∨ (parseOffset offset).isSome then []
  else [invalid path offset (regexError offsetErrMsg offsetFmt ["16", "32k", "64M", "2G"])]

def sizeErrMsg : String :=
  "must consist of numeric characters followed by a valid size suffix. 'k|K|m|M"

def isBlank (c : Char) : Bool := c = ' ' || c = '\t'

def isSizeWithBlanks (cs : List Char) : Bool :=
  isNumberWithUnit ['k', 'K', 'm', 'M']
    ((cs.dropWhile isBlank).reverse.dropWhile isBlank).reverse

def validateSize (size path : String) : ErrorList :=
  if size = "" ∨ (isSizeWithBlanks size.toList ∧ (parseSize size).isSome) then []
  else [invalid path size (regexError sizeErrMsg sizeFmt ["16", "32k", "64M"])]

section Names

variable (lib : Libraries) (name path : String)

def validateK8SName : ErrorList :=
  if name = "" then [] else invalidAll path name (lib.isDNS1123Subdomain name)

def validateSecretName : ErrorList := validateK8SName lib name path

def validateDNS1035Label : ErrorList :=
  if name = "" then [required path ""] else invalidAll path name (lib.isDNS1035Label name)

def validateDNS1123Label : ErrorList :=
  if name = "" then [required path ""] else invalidAll path name (lib.isDNS1123Label name)

def pathErrMsg : String :=
  "must start with / and must not include any whitespace character, `\x7b`, `\x7d` or `;`"

def pathFmt : String := "/[^\\s\x7b\x7d;\\\\]*"

def isPathText (cs : List Char) : Bool :=
  match cs with
  | '/' :: rest => rest.all fun c => !isRegexSpace c && !(['\x7b', '\x7d', ';', '\\'].contains c)
  | _ => false

/-- A path has no segment of two dots; both kinds of slashes separate segments. -/
def validatePath (path fieldPath : String) : ErrorList :=
  if path = "" then [required fieldPath ""]
  else if hasPrefix path "//" then
    [invalid fieldPath path "protocol-relative URIs not allowed, must not start with '//'"]
  else if (path.toList.splitOnP fun c => c = '/' || c = '\\').contains ['.', '.'] then
    [invalid fieldPath path "path traversal not allowed, path must not contain '..' segments"]
  else if !isPathText path.toList then
    [invalid fieldPath path (regexError pathErrMsg pathFmt ["/", "/path", "/path/subpath-123"])]
  else if !path.toList.all lib.isPrint then
    [invalid fieldPath path "must not include non-printable characters"]
  else []

/-- `UnescapeNGINXToken`: what NGINX reads from a quoted token. -/
def unescapeNGINXToken : List Char → List Char
  | [] => []
  | [c] => [c]
  | c :: next :: rest =>
    if c ≠ '\\' then c :: unescapeNGINXToken (next :: rest)
    else
      let unescaped := match next with
        | '"' => ['"']
        | '\'' => ['\'']
        | '\\' => ['\\']
        | 't' => ['\t']
        | 'r' => ['\r']
        | 'n' => ['\n']
        | other => ['\\', other]
      unescaped ++ unescapeNGINXToken rest

end Names

end IngressController.Validation
