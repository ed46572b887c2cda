import CsmVgaSelector.Lib.Holdings
import CsmVgaSelector.MemoryMap
import CsmVgaSelector.Status

/-!
# Buffers that the firmware fills

The memory map and the variables have sizes that the firmware knows and that may change while it is asked. The
program asks for the size first, allocates as much, and tries again a few times when that has become too little.
-/

namespace CsmVgaSelector.Buffers

open Prog

/-- `EFI_PROTOCOL_ERROR`. -/
def efiProtocolError : EfiStatus := .otherError 24

/-- The buffer after so many bytes of it were written, from its beginning on. -/
def filled (bytes : Nat) (written : List UInt8) : List UInt8 :=
  written.take bytes ++ List.replicate (bytes - written.length) 0

/-! ### The memory map -/

def memoryMapCaptureAttempts : Nat := 4
def memoryMapSlackEntries : Nat := 8

/-- What a call about the memory map answers: `GetMemoryMap`, and what it leaves in its arguments, or
`AllocatePool`. -/
structure MapAnswer where
  status : EfiStatus
  mapSize : Nat
  descriptorSize : Nat
  descriptorVersion : Nat
  written : List UInt8
  pointer : Nat

/-- `MEMORY_MAP_SNAPSHOT`, with what its buffer holds. -/
structure CapturedMap where
  /-- Zero while it is `NULL`. -/
  map : Nat
  mapSize : Nat
  descriptorSize : Nat
  descriptorVersion : Nat
  buffer : List UInt8

namespace CapturedMap

def zero : CapturedMap := ⟨0, 0, 0, 0, []⟩

/-- The map as the range check sees it. -/
def toMemoryMapSnapshot (snapshot : CapturedMap) : MemoryMapSnapshot :=
  ⟨snapshot.buffer.take snapshot.mapSize, snapshot.descriptorSize⟩

end CapturedMap

/-- Neither the size of the descriptors nor that of the map leaves no room for the slack. -/
def slackFits (descriptorSize mapSize : Nat) : Bool :=
  !(descriptorSize < efiMemoryDescriptorBytes || descriptorSize > maxUintn / memoryMapSlackEntries ||
    mapSize > maxUintn - descriptorSize * memoryMapSlackEntries)

def memoryMapRelease (snapshot : CapturedMap) : Prog MapAnswer Holdings CapturedMap := do
  if snapshot.map ≠ 0 then modify (·.giveBack snapshot.map)
  return .zero

/-- The attempts that are left, with the sizes that the firmware gave last. -/
def captureAttempts : Nat → Nat → CapturedMap → Prog MapAnswer Holdings (EfiStatus × CapturedMap)
  | 0, _, _ => return (.bufferTooSmall, .zero)
  | attempts + 1, requiredSize, before => do
      let map ← allocate MapAnswer.pointer requiredSize
      if map = 0 then return (.outOfResources, { before with map := 0 })
      else
        modify (·.lend map requiredSize)
        let answer ← call
        let snapshot : CapturedMap :=
          ⟨map, answer.mapSize, answer.descriptorSize, answer.descriptorVersion, filled requiredSize answer.written⟩
        if answer.status = .success then
          if snapshot.mapSize = 0 ∨ snapshot.mapSize > requiredSize ∨
              snapshot.descriptorSize < efiMemoryDescriptorBytes ∨
              snapshot.mapSize % snapshot.descriptorSize ≠ 0 then
            let snapshot ← memoryMapRelease snapshot
            return (.badBufferSize, snapshot)
          else return (.success, snapshot)
        else
          modify (·.giveBack map)
          if !answer.status.isError then return (efiProtocolError, .zero)
          else if answer.status ≠ .bufferTooSmall then return (answer.status, .zero)
          else if !slackFits snapshot.descriptorSize snapshot.mapSize then return (.badBufferSize, .zero)
          else
            captureAttempts attempts
              (snapshot.mapSize + snapshot.descriptorSize * memoryMapSlackEntries)
              { snapshot with map := 0 }

def memoryMapCapture : Prog MapAnswer Holdings (EfiStatus × CapturedMap) := do
  let answer ← call
  if answer.status ≠ .bufferTooSmall then
    return (if answer.status.isError then answer.status else efiProtocolError, .zero)
  else if !slackFits answer.descriptorSize answer.mapSize then return (.badBufferSize, .zero)
  else
    captureAttempts memoryMapCaptureAttempts
      (answer.mapSize + answer.descriptorSize * memoryMapSlackEntries) .zero

/-- A caller of the capture: the check of the map in between, and the release. -/
def withMemoryMap (check : MemoryMapSnapshot → EfiStatus) : Prog MapAnswer Holdings EfiStatus := do
  let (status, snapshot) ← memoryMapCapture
  if status.isError then return status
  else
    let checked := check snapshot.toMemoryMapSnapshot
    let _ ← memoryMapRelease snapshot
    return checked

/-! ### Variables -/

def legacyBootVariableReadAttempts : Nat := 3
def bootProbeReadAttempts : Nat := 3

/-- What a call about a variable answers: `GetVariable`, and what it leaves in its arguments, or
`AllocatePool`. -/
structure VariableAnswer where
  status : EfiStatus
  size : Nat
  attributes_ : UInt32
  written : List UInt8
  pointer : Nat

structure VariableBuffer where
  /-- Zero while it is `NULL`. -/
  buffer : Nat
  bufferSize : Nat
  attributes_ : UInt32
  content : List UInt8

def VariableBuffer.none : VariableBuffer := ⟨0, 0, 0, []⟩

def readAttempts (maximumSize : Nat) :
    Nat → Nat → Nat → Prog VariableAnswer Holdings (EfiStatus × VariableBuffer)
  | 0, _, _ => return (.bufferTooSmall, .none)
  | attempts + 1, requiredSize, bufferSize =>
      if requiredSize = 0 ∨ requiredSize > maximumSize then
        return (.badBufferSize, { VariableBuffer.none with bufferSize })
      else do
        let buffer ← allocate VariableAnswer.pointer requiredSize
        if buffer = 0 then return (.outOfResources, { VariableBuffer.none with bufferSize })
        else
          modify (·.lend buffer requiredSize)
          let answer ← call
          if answer.status = .success then
            if answer.size = 0 ∨ answer.size > requiredSize then
              modify (·.giveBack buffer)
              return (.compromisedData, .none)
            else
              return (.success, ⟨buffer, answer.size, answer.attributes_, filled requiredSize answer.written⟩)
          else
            modify (·.giveBack buffer)
            if answer.status ≠ .bufferTooSmall ∨ answer.size = 0 ∨ answer.size > maximumSize then
              return (answer.status, .none)
            else readAttempts maximumSize attempts answer.size answer.size

def readVariable (attempts maximumSize : Nat) : Prog VariableAnswer Holdings (EfiStatus × VariableBuffer) := do
  let answer ← call
  if answer.status ≠ .bufferTooSmall then
    return (if answer.status.isError then answer.status else .compromisedData, .none)
  else readAttempts maximumSize attempts answer.size 0

def legacyBootReadVariableBounded (maximumSize : Nat) : Prog VariableAnswer Holdings (EfiStatus × VariableBuffer) :=
  if maximumSize = 0 then return (.invalidParameter, .none)
  else readVariable legacyBootVariableReadAttempts maximumSize

/-- The attributes are not asked for. -/
def readVariableBounded (maximumSize : Nat) : Prog VariableAnswer Holdings (EfiStatus × VariableBuffer) := do
  let (status, read) ← readVariable bootProbeReadAttempts maximumSize
  return (status, { read with attributes_ := 0 })

end CsmVgaSelector.Buffers
