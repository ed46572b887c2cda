import CsmVgaSelector.Bbs.Target
import CsmVgaSelector.Lib.Peek

/-!
# Decoding a Boot#### option

A load option has three lengths that its variable supplies: its own, that of its device path, and that of
each node of the path. The option is accepted when the path is one BBS node and the end of the path. Places
are offsets into the variable, or into the path where a function is given a path; the path that the option
owns is read where it was copied from.
-/

namespace CsmVgaSelector

open Peek

def loadOptionFixedBytes : Nat := 6

abbrev OptionRead := Peek Nat UInt8

/-- `LegacyBootReadLe16`. -/
def peekWord (offset : Nat) : OptionRead UInt16 := do
  let low ← peek offset
  let high ← peek (offset + 1)
  return low.toUInt16 ||| high.toUInt16 <<< 8

/-- `LegacyBootReadLe32`. -/
def peekDoubleWord (offset : Nat) : OptionRead UInt32 := do
  let byte0 ← peek offset
  let byte1 ← peek (offset + 1)
  let byte2 ← peek (offset + 2)
  let byte3 ← peek (offset + 3)
  return byte0.toUInt32 ||| byte1.toUInt32 <<< 8 ||| byte2.toUInt32 <<< 16 ||| byte3.toUInt32 <<< 24

/-- `CopyMem` of so many bytes from this offset on. -/
def peekBytes (offset : Nat) : Nat → OptionRead (List UInt8)
  | 0 => return []
  | bytes + 1 => do
      let held ← peek offset
      let rest ← peekBytes (offset + 1) bytes
      return held :: rest

/-- So many words from this offset on. -/
def peekWords (offset : Nat) : Nat → OptionRead (List UInt16)
  | 0 => return []
  | words + 1 => do
      let word ← peekWord offset
      let rest ← peekWords (offset + 2) words
      return word :: rest

/-! ### Device paths -/

/-- The walk over the nodes from this offset on; `sawEnd` once the node that ends the whole path is
behind. -/
def peekDevicePathNodes (pathSize offset : Nat) (sawEnd : Bool) : OptionRead Bool :=
  if offset < pathSize then
    if pathSize - offset < 4 then return false
    else do
      let nodeType ← peek offset
      let subType ← peek (offset + 1)
      let nodeLength ← peekWord (offset + 2)
      if _h : nodeLength.toNat < 4 ∨ nodeLength.toNat > pathSize - offset then return false
      else if nodeType = endDevicePathType then
        if nodeLength ≠ 4 then return false
        else if subType = endEntireDevicePathSubtype then
          if offset + nodeLength.toNat ≠ pathSize then return false
          else peekDevicePathNodes pathSize (offset + nodeLength.toNat) true
        else if subType = endInstanceDevicePathSubtype then
          peekDevicePathNodes pathSize (offset + nodeLength.toNat) sawEnd
        else return false
      else peekDevicePathNodes pathSize (offset + nodeLength.toNat) sawEnd
  else return sawEnd
  termination_by pathSize - offset

def peekValidateDevicePathList (pathSize : Nat) : OptionRead EfiStatus :=
  if pathSize < 4 then return .compromisedData
  else do
    let valid ← peekDevicePathNodes pathSize 0 false
    if !valid then return .compromisedData
    else return .success

/-- Whether one of so many bytes from this offset on is zero. -/
def peekHasZero (offset : Nat) : Nat → OptionRead Bool
  | 0 => return false
  | bytes + 1 => do
      let held ← peek offset
      if held = 0 then return true
      else peekHasZero (offset + 1) bytes

/-- The node at the offset is the one that ends the whole path. -/
def peekIsEndEntire (offset : Nat) : OptionRead Bool := do
  let nodeType ← peek offset
  if nodeType ≠ endDevicePathType then return false
  else
    let subType ← peek (offset + 1)
    if subType ≠ endEntireDevicePathSubtype then return false
    else
      let nodeLength ← peekWord (offset + 2)
      return nodeLength == 4

/-- The string of the BBS node of this length, with its terminator in its last byte and nowhere else. -/
def peekBbsString (nodeLength descriptionBytes : Nat) : OptionRead (Except EfiStatus (List UInt8)) := do
  let last ← peek (nodeLength - 1)
  if last ≠ 0 then return .error .compromisedData
  else
    let zero ← peekHasZero 8 (nodeLength - 9)
    if zero then return .error .compromisedData
    else if nodeLength - 8 > descriptionBytes then return .error .badBufferSize
    else
      let text ← peekBytes 8 (nodeLength - 9)
      return .ok text

def peekValidateExactBbsDevicePath (pathSize descriptionBytes : Nat) :
    OptionRead (Except EfiStatus (UInt16 × UInt16 × List UInt8)) := do
  let status ← peekValidateDevicePathList pathSize
  if status.isError then return .error status
  else
    let nodeType ← peek 0
    let subType ← peek 1
    if nodeType ≠ bbsDevicePathType ∨ subType ≠ bbsBbsDp then return .error .unsupported
    else if pathSize < 9 + 4 then return .error .compromisedData
    else
      let nodeLength ← peekWord 2
      if nodeLength.toNat < 9 ∨ nodeLength.toNat + 4 ≠ pathSize then return .error .compromisedData
      else
        let ends ← peekIsEndEntire nodeLength.toNat
        if !ends then return .error .compromisedData
        else
          match ← peekBbsString nodeLength.toNat descriptionBytes with
          | .error status => return .error status
          | .ok text =>
              let deviceType ← peekWord 4
              let statusFlag ← peekWord 6
              return .ok (deviceType, statusFlag, text)

/-! ### The option -/

/-- What the three allocations for the option's copies are granted. -/
structure OptionPools where
  description : Bool
  devicePath : Bool
  optionalData : Bool

/-- How many characters come before the terminator, from this one on. -/
def peekDescriptionEnd (variableSize characters : Nat) : OptionRead (Option Nat) :=
  if loadOptionFixedBytes + (characters + 1) * 2 ≤ variableSize then do
    let character ← peekWord (loadOptionFixedBytes + characters * 2)
    if character = 0 then return some characters
    else peekDescriptionEnd variableSize (characters + 1)
  else return none
  termination_by variableSize - characters

/-- The option's own copies, and what the copy of the path says. -/
def peekOptionCopies (number : UInt16) (attributes : UInt32) (variableSize characters pathSize : Nat) :
    OptionRead (Except EfiStatus BootCandidate) := do
  let pathOffset := loadOptionFixedBytes + (characters + 1) * 2
  let optionalOffset := pathOffset + pathSize
  let description ← peekWords loadOptionFixedBytes (characters + 1)
  let devicePath ← peekBytes pathOffset pathSize
  let optionalData ← peekBytes optionalOffset (variableSize - optionalOffset)
  match ← (peekValidateExactBbsDevicePath pathSize (maxStringBytes + 1)).through (pathOffset + ·) with
  | .error status => return .error status
  | .ok (deviceType, statusFlag, text) =>
      return .ok
        { isLegacy := true
          isActive := attributes &&& loadOptionActive != 0
          number
          attributes
          description := some description
          devicePath := some devicePath
          devicePathCrc32 := legacyBootCrc32 devicePath
          bbsDeviceType := deviceType
          bbsStatusFlag := statusFlag
          bbsDescription := text
          optionalData := if optionalData = [] then none else some optionalData
          optionalDataCrc32 := legacyBootCrc32 optionalData }

/-- The option, once its description is known to have so many characters. -/
def peekOptionPath (pools : OptionPools) (number : UInt16) (attributes : UInt32)
    (variableSize characters pathSize : Nat) : OptionRead (Except EfiStatus BootCandidate) :=
  let pathOffset := loadOptionFixedBytes + (characters + 1) * 2
  if pathSize = 0 ∨ pathOffset > variableSize ∨ pathSize > variableSize - pathOffset then
    return .error .compromisedData
  else do
    let status ← (peekValidateDevicePathList pathSize).through (pathOffset + ·)
    if status.isError then return .error status
    else
      let nodeType ← peek pathOffset
      let subType ← peek (pathOffset + 1)
      if nodeType ≠ bbsDevicePathType ∨ subType ≠ bbsBbsDp then return .error .unsupported
      else if !pools.description ∨ !pools.devicePath ∨
          (variableSize - (pathOffset + pathSize) ≠ 0 ∧ !pools.optionalData) then
        return .error .outOfResources
      else peekOptionCopies number attributes variableSize characters pathSize

def peekParseLegacyBootOption (pools : OptionPools) (number : UInt16) (variableSize : Nat) :
    OptionRead (Except EfiStatus BootCandidate) :=
  if variableSize < loadOptionFixedBytes + 2 then return .error .compromisedData
  else do
    let attributes ← peekDoubleWord 0
    let pathLength ← peekWord 4
    match ← peekDescriptionEnd variableSize 0 with
    | none => return .error .compromisedData
    | some characters =>
        peekOptionPath pools number attributes variableSize characters pathLength.toNat

/-- The option that a variable of this content holds. -/
def legacyBootParseLegacyBootOption (pools : OptionPools) (number : UInt16) (variable_ : List UInt8) :
    Except EfiStatus BootCandidate :=
  (peekParseLegacyBootOption pools number variable_.length).run fun offset => variable_[offset]!

end CsmVgaSelector
