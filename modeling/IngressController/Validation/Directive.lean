import IngressController.Library.Utf8

/-! # Validators of values rendered into NGINX directives

The validators of `internal/validation/nginx.go` over byte strings. An index into
the source string is a split of it: the bytes before the index, nearest first,
and the bytes from the index on.
-/

namespace IngressController.Validation

open Utf8 (Bytes runes)
open Stepper (Verdict)

def isNginxVariableStart (char : UInt8) : Bool :=
  char = '_'.toUInt8 || ('A'.toUInt8 ≤ char && char ≤ 'Z'.toUInt8) ||
    ('a'.toUInt8 ≤ char && char ≤ 'z'.toUInt8)

def isNginxVariableChar (char : UInt8) : Bool :=
  isNginxVariableStart char || ('0'.toUInt8 ≤ char && char ≤ '9'.toUInt8)

/-- Whether an odd number of backslashes stands right before the index. -/
def isEscaped (before : Bytes) : Bool :=
  (before.takeWhile (· = '\\'.toUInt8)).length % 2 ≠ 0

/-- The bytes of the braced variable at the index and those that follow it. -/
def bracedNginxVariableEnd (before : Bytes) : Bytes → Option (Bytes × Bytes)
  | dollar :: brace :: first :: rest =>
    if dollar ≠ '$'.toUInt8 || brace ≠ '\x7b'.toUInt8 || isEscaped before ||
        !isNginxVariableStart first then none
    else
      match rest.dropWhile isNginxVariableChar with
      | close :: after =>
        if close ≠ '\x7d'.toUInt8 then none
        else some (dollar :: brace :: first :: rest.takeWhile isNginxVariableChar ++ [close],
          after)
      | [] => none
  | _ => none

/-- Text that stands in for a braced variable. -/
def variableMask : Bytes := "$variable".toList.map Char.toUInt8

/-- The masking loop; every iteration consumes at least one byte. -/
def maskFrom : Nat → Bytes → Bytes → Bytes
  | 0, _, _ => []
  | _ + 1, _, [] => []
  | fuel + 1, before, char :: rest =>
    match bracedNginxVariableEnd before (char :: rest) with
    | some (braced, after) => variableMask ++ maskFrom fuel (braced.reverse ++ before) after
    | none => char :: maskFrom fuel (char :: before) rest

def maskBracedNginxVariables (value : Bytes) : Bytes := maskFrom value.length [] value

def errDirectiveDelimiter : String := "must not contain NGINX directive delimiters"

/-- The scanner state; `quote` is 0 outside a quoted argument. -/
structure DirectiveScanner where
  quote : Nat := 0
  escaped : Bool := false
  tokenBoundary : Bool := false
  needSpace : Bool := false

def isNginxSpace (char : Nat) : Bool :=
  char = ' '.toNat || char = '\t'.toNat || char = '\r'.toNat || char = '\n'.toNat

namespace DirectiveScanner

variable (s : DirectiveScanner) (char : Nat)

def insideQuote : DirectiveScanner :=
  if char = '\\'.toNat then { s with escaped := true }
  else if char = s.quote then { s with quote := 0, needSpace := true }
  else s

def outsideQuote : Verdict DirectiveScanner String :=
  if s.needSpace then
    if !isNginxSpace char then .stop "quoted NGINX argument must be followed by whitespace"
    else .more { s with needSpace := false, tokenBoundary := true }
  else if isNginxSpace char then .more { s with tokenBoundary := true }
  else if char = '\\'.toNat then .more { s with escaped := true, tokenBoundary := false }
  else if char = '\''.toNat || char = '"'.toNat then
    .more { s with quote := if s.tokenBoundary then char else s.quote, tokenBoundary := false }
  else if char = '#'.toNat || char = ';'.toNat || char = '\x7b'.toNat || char = '\x7d'.toNat then
    .stop errDirectiveDelimiter
  else .more { s with tokenBoundary := false }

def next : Verdict DirectiveScanner String :=
  if char = '\r'.toNat || char = '\n'.toNat || char = 96 then .stop errDirectiveDelimiter
  else if s.escaped then .more { s with escaped := false, tokenBoundary := false }
  else if s.quote ≠ 0 then .more (s.insideQuote char)
  else s.outsideQuote char

/-- What an accepted character did. -/
theorem next_cases {s s' : DirectiveScanner} {char : Nat} (h : s.next char = .more s') :
    s.escaped = true ∧ s' = { s with escaped := false, tokenBoundary := false } ∨
      s.escaped = false ∧ s.quote ≠ 0 ∧ s' = s.insideQuote char ∨
      s.escaped = false ∧ s.quote = 0 ∧ s.outsideQuote char = .more s' := by
  unfold next at h
  split at h
  · cases h
  cases he : s.escaped with
  | true => simpa [he] using h.symm
  | false =>
    by_cases hq : s.quote = 0
    · simpa [he, hq] using h
    · simpa [he, hq] using h.symm

def atEnd : Option String :=
  if s.escaped || s.quote ≠ 0 then some "must contain balanced quotes and escapes" else none

end DirectiveScanner

/-- Unicode white space, as trimmed from both ends of a string. -/
def isUnicodeSpace (char : Nat) : Bool :=
  (0x09 ≤ char && char ≤ 0x0D) || char = 0x20 || char = 0x85 || char = 0xA0 || char = 0x1680 ||
    (0x2000 ≤ char && char ≤ 0x200A) || char = 0x2028 || char = 0x2029 || char = 0x202F ||
    char = 0x205F || char = 0x3000

def validateDirectiveValue (value : Bytes) : Option String :=
  -- trimming leaves nothing exactly when every rune is white space
  if (runes value).all isUnicodeSpace then some "must not be empty"
  else
    match Stepper.run DirectiveScanner.next { tokenBoundary := true }
        (runes (maskBracedNginxVariables value)) with
    | .stop (err, _) => some err
    | .more scanner => scanner.atEnd

def validateDirectiveToken (value : Bytes) : Option String :=
  if value = [] then some "must not be empty"
  else
    match validateDirectiveValue value with
    | some err => some err
    | none =>
      if value.any fun b => b = '#'.toUInt8 || b = '\\'.toUInt8 || b = ' '.toUInt8 ||
          b = '\t'.toUInt8 then
        some "must be a single NGINX token"
      else none

end IngressController.Validation
