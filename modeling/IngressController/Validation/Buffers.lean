import IngressController.Api.VirtualServer

/-! # Balancing of proxy buffers

`BalanceProxiesForUpstreams` of `internal/validation/data_types.go`. Sizes are
unsigned 64-bit numbers of bytes, so products and differences wrap around.
-/

namespace IngressController.Validation

open GoString

def sizeKB : Nat := 1024
def sizeMB : Nat := 1024 * 1024
def sizeGB : Nat := 1024 * 1024 * 1024

def minNGINXBufferCount : Nat := 2
def maxNGINXBufferCount : Nat := 1024

/-- Arithmetic of `uint64`. -/
def wrap (n : Nat) : Nat := n % 2 ^ 64

variable (sizeStr : List Char)

/-- `NewSizeWithUnit` with normalization on; `none` is an error. Any unit other than `k`
becomes `m`. -/
def newSizeWithUnit : Option (List Char) :=
  let sizeStr := toLower (trimSpace sizeStr)
  match sizeStr.getLast? with
  | none => some []
  | some lastChar =>
    let (unit, numStr) :=
      if lastChar = 'k' then ('k', sizeStr.dropLast)
      else if isDigit lastChar then ('m', sizeStr)
      else ('m', sizeStr.dropLast)
    match parseUint numStr with
    | none => none
    | some num => if num < 1 then none else some (ofNat num ++ [unit])

/-- `newNumberSizeConfig` with normalization on. -/
def newNumberSizeConfig : Option (List Char) :=
  let sizeStr := toLower (trimSpace sizeStr)
  if sizeStr = [] then some []
  else
    match fields sizeStr with
    | [number, size] =>
      match parseUint number, newSizeWithUnit size with
      | some num, some sizeStr2 => some (ofNat num ++ ' ' :: sizeStr2)
      | _, _ => none
    | _ => none

def parseSizeToBytes : Nat :=
  let sizeStr := toLower (trimSpace sizeStr)
  match sizeStr.getLast? with
  | none => 0
  | some lastChar =>
    let (multiplier, numStr) :=
      if lastChar = 'k' then (sizeKB, sizeStr.dropLast)
      else if lastChar = 'm' then (sizeMB, sizeStr.dropLast)
      else if lastChar = 'g' then (sizeGB, sizeStr.dropLast)
      else (sizeMB, sizeStr)
    match parseUint numStr with
    | some num => wrap (num * multiplier)
    | none => 0

def bytesToSizeString (bytes : Nat) : List Char :=
  if bytes = 0 then "0k".toList
  else if bytes % sizeGB = 0 then ofNat (bytes / sizeGB) ++ ['g']
  else if bytes % sizeMB = 0 then ofNat (bytes / sizeMB) ++ ['m']
  else if bytes % sizeKB = 0 then ofNat (bytes / sizeKB) ++ ['k']
  else ofNat (wrap (bytes + 1023) / 1024) ++ ['k']

def parseProxyBuffers (proxyBuffers : List Char) : Nat × Nat :=
  match fields (trimSpace proxyBuffers) with
  | [number, size] =>
    match parseUint number with
    | some num => (num, parseSizeToBytes size)
    | none => (8, 4 * 1024)
  | _ => (8, 4 * 1024)

def validateBufferConstraints (bufferNumber : Nat) : Nat :=
  min (max bufferNumber minNGINXBufferCount) maxNGINXBufferCount

def parseBufferSizes (proxyBufferSize proxyBusyBuffers : List Char) (defaultSize : Nat) :
    Nat × Nat :=
  (if proxyBufferSize ≠ [] then parseSizeToBytes proxyBufferSize else defaultSize,
    if proxyBusyBuffers ≠ [] then parseSizeToBytes proxyBusyBuffers else defaultSize)

def applyBufferSizeConstraints (proxyBufferSizeBytes proxyBusyBuffersBytes bufferSizeBytes
    maxAllowedSize : Nat) : Nat × Nat :=
  let proxyBufferSizeBytes := min proxyBufferSizeBytes maxAllowedSize
  let proxyBusyBuffersBytes := min proxyBusyBuffersBytes maxAllowedSize
  let minBusySize := max bufferSizeBytes proxyBufferSizeBytes
  (proxyBufferSizeBytes, max proxyBusyBuffersBytes minBusySize)

/-- The balanced number of buffers, buffer size, first buffer size and busy size, in bytes. -/
def balancedBytes (proxyBuffers proxyBufferSize proxyBusyBuffers : List Char) :
    Nat × Nat × Nat × Nat :=
  let (bufferNumber, bufferSizeBytes) :=
    if proxyBuffers = [] then (minNGINXBufferCount, 4 * 1024) else parseProxyBuffers proxyBuffers
  let bufferNumber := validateBufferConstraints bufferNumber
  let (proxyBufferSizeBytes, proxyBusyBuffersBytes) :=
    parseBufferSizes proxyBufferSize proxyBusyBuffers bufferSizeBytes
  let totalBufferSize := wrap (bufferSizeBytes * bufferNumber)
  let maxAllowedSize := wrap (totalBufferSize + 2 ^ 64 - bufferSizeBytes)
  let (proxyBufferSizeBytes, proxyBusyBuffersBytes) :=
    applyBufferSizeConstraints proxyBufferSizeBytes proxyBusyBuffersBytes bufferSizeBytes
      maxAllowedSize
  (bufferNumber, bufferSizeBytes, proxyBufferSizeBytes, proxyBusyBuffersBytes)

/-- The balanced values; the list of modifications, which is only logged, is left out. -/
def balanceProxyValues (proxyBuffers proxyBufferSize proxyBusyBuffers : List Char)
    (autoadjust : Bool) : List Char × List Char × List Char :=
  if !autoadjust || (proxyBuffers = [] && proxyBufferSize = [] && proxyBusyBuffers = []) then
    (proxyBuffers, proxyBufferSize, proxyBusyBuffers)
  else
    let (bufferNumber, bufferSizeBytes, proxyBufferSizeBytes, proxyBusyBuffersBytes) :=
      balancedBytes proxyBuffers proxyBufferSize proxyBusyBuffers
    (ofNat bufferNumber ++ ' ' :: bytesToSizeString bufferSizeBytes,
      bytesToSizeString proxyBufferSizeBytes, bytesToSizeString proxyBusyBuffersBytes)

def maxInt32 : Nat := 2 ^ 31 - 1

/-- The normalized inputs of the balancing of an upstream with buffers. -/
def normalizedBuffers (u : Upstream) (buffers : UpstreamBuffers) :
    List Char × List Char × List Char :=
  ((newNumberSizeConfig ((toString buffers.number).toList ++ ' ' :: buffers.size.toList)).getD
      "8 4k".toList,
    (newSizeWithUnit u.proxyBufferSize.toList).getD "4k".toList,
    (newSizeWithUnit u.proxyBusyBuffersSize.toList).getD "4k".toList)

def balanceProxiesForUpstreams (u : Upstream) (autoadjust : Bool) : Upstream :=
  match u.proxyBuffers with
  | none => u
  | some buffers =>
    if !autoadjust then u
    else
      let (pb, pbs, pbbs) := normalizedBuffers u buffers
      let (balancedPB, balancedPBS, balancedPBBS) := balanceProxyValues pb pbs pbbs autoadjust
      let buffers :=
        match fields balancedPB with
        | [number, size] =>
          match parseUint number with
          | some num => { number := min num maxInt32, size := String.ofList size }
          | none => buffers
        | _ => buffers
      { u with
        proxyBuffers := some buffers
        proxyBufferSize := String.ofList balancedPBS
        proxyBusyBuffersSize := String.ofList balancedPBBS }

end IngressController.Validation
