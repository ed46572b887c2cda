import CsmVgaSelector.Bytes
import CsmVgaSelector.Status

/-!
# The path of the application's own file

The file path nodes of the image's device path hold the parts of the path. Two passes go over the nodes: the
first measures the parts, the second writes them into a buffer of that size. A write outside the buffer and a
walk without end are failures of their own here. The device path library is not part of the program; what it
answers is given.
-/

namespace CsmVgaSelector

/-- The device path library. A node is the memory that begins with it. -/
structure DevicePathLib where
  isDevicePathValid : List UInt8 → Nat → Bool
  getDevicePathSize : List UInt8 → Nat
  devicePathNodeLength : List UInt8 → Nat
  devicePathType : List UInt8 → UInt8
  devicePathSubType : List UInt8 → UInt8
  isDevicePathEnd : List UInt8 → Bool

inductive PathFailure where
  | returned (status : EfiStatus)
  /-- A write outside the buffer, or a walk that goes on past all its nodes. -/
  | astray
  deriving DecidableEq, Repr

def appFileMaxDevicePathBytes : Nat := 64 * 1024
def sizeofDevicePathProtocol : Nat := 4
def sizeofChar16 : Nat := 2
def mediaDevicePath : UInt8 := 0x04
def mediaFilepathDp : UInt8 := 0x04

/-- `PathName[index]` of a file path node. -/
def pathName (node : List UInt8) (index : Nat) : UInt16 :=
  readLe16 node (sizeofDevicePathProtocol + sizeofChar16 * index)

def backslash : UInt16 := 0x5C
def slash : UInt16 := 0x2F

def isSeparator (character : UInt16) : Bool := character == backslash || character == slash

def backslashed (character : UInt16) : UInt16 := if character = slash then backslash else character

variable (lib : DevicePathLib)

def isFilePathNode (node : List UInt8) : Bool :=
  lib.devicePathType node == mediaDevicePath && lib.devicePathSubType node == mediaFilepathDp

def fragmentCapacity (node : List UInt8) : Nat :=
  (lib.devicePathNodeLength node - sizeofDevicePathProtocol) / sizeofChar16

/-- The loop of both passes: `body` at a node and what is left of the path there, up to the end node. -/
def walkNodes {σ : Type} (body : List UInt8 → Nat → σ → Except PathFailure σ) (filePath : List UInt8) :
    Nat → Nat → σ → Except PathFailure (Nat × σ)
  | 0, _, _ => .error .astray
  | fuel + 1, offset, state =>
      if offset + sizeofDevicePathProtocol ≤ lib.getDevicePathSize filePath then
        let node := filePath.drop offset
        match body node (lib.getDevicePathSize filePath - offset) state with
        | .error failure => .error failure
        | .ok state =>
            if lib.isDevicePathEnd node then .ok (offset + lib.devicePathNodeLength node, state)
            else walkNodes body filePath fuel (offset + lib.devicePathNodeLength node) state
      else .ok (offset, state)

/-! ### The first pass -/

@[ext] structure FragmentTotals where
  totalChars : Nat
  fragmentCount : Nat
  deriving DecidableEq, Repr

/-- The index of the first `NUL` from `FragmentChars` on, or the end of the node. -/
def countFragmentChars (node : List UInt8) : Nat → Nat → Nat
  | 0, fragmentChars => fragmentChars
  | room + 1, fragmentChars =>
      if pathName node fragmentChars ≠ 0 then countFragmentChars node room (fragmentChars + 1)
      else fragmentChars

def measureNode (node : List UInt8) (left : Nat) (totals : FragmentTotals) :
    Except PathFailure FragmentTotals :=
  let nodeSize := lib.devicePathNodeLength node
  if nodeSize < sizeofDevicePathProtocol ∨ nodeSize > left then .error (.returned .compromisedData)
  else if isFilePathNode lib node then
    if nodeSize - sizeofDevicePathProtocol < sizeofChar16 ∨ (nodeSize - sizeofDevicePathProtocol) % 2 ≠ 0 then
      .error (.returned .compromisedData)
    else
      let fragmentChars := countFragmentChars node (fragmentCapacity lib node) 0
      if fragmentChars = fragmentCapacity lib node then .error (.returned .compromisedData)
      else if fragmentChars > maxUintn - totals.totalChars then .error (.returned .outOfResources)
      else
        .ok
          { totalChars := totals.totalChars + fragmentChars
            fragmentCount := totals.fragmentCount + 1 }
  else .ok totals

def measureFragments (filePath : List UInt8) : Except PathFailure (Nat × FragmentTotals) :=
  walkNodes lib (measureNode lib) filePath (lib.getDevicePathSize filePath + 1) 0 ⟨0, 0⟩

/-! ### The second pass -/

structure PathBuffer where
  result : List UInt16
  destination : Nat
  deriving DecidableEq, Repr

def PathBuffer.put (buffer : PathBuffer) (character : UInt16) : Except PathFailure PathBuffer :=
  if buffer.destination < buffer.result.length then
    .ok
      { result := buffer.result.set buffer.destination character
        destination := buffer.destination + 1 }
  else .error .astray

def putSeparator (node : List UInt8) (buffer : PathBuffer) : Except PathFailure PathBuffer :=
  if buffer.destination ≠ 0 ∧ pathName node 0 ≠ 0 ∧
      isSeparator buffer.result[buffer.destination - 1]! = false ∧ isSeparator (pathName node 0) = false then
    buffer.put backslash
  else .ok buffer

def copyFragmentChars (node : List UInt8) : Nat → Nat → PathBuffer → Except PathFailure PathBuffer
  | 0, _, buffer => .ok buffer
  | room + 1, index, buffer =>
      if pathName node index ≠ 0 then
        match buffer.put (backslashed (pathName node index)) with
        | .error failure => .error failure
        | .ok buffer => copyFragmentChars node room (index + 1) buffer
      else .ok buffer

def copyNode (node : List UInt8) (_left : Nat) (buffer : PathBuffer) : Except PathFailure PathBuffer :=
  if isFilePathNode lib node then
    match putSeparator node buffer with
    | .error failure => .error failure
    | .ok buffer => copyFragmentChars node (fragmentCapacity lib node) 0 buffer
  else .ok buffer

/-- A buffer from `AllocateZeroPool`. -/
def zeroPool (characters : Nat) : PathBuffer where
  result := List.replicate characters 0
  destination := 0

def copyFragments (filePath : List UInt8) (totals : FragmentTotals) : Except PathFailure (Nat × PathBuffer) :=
  walkNodes lib (copyNode lib) filePath (lib.getDevicePathSize filePath + 1) 0
    (zeroPool (totals.totalChars + totals.fragmentCount + 1))

/-! ### Both -/

/-- The whole buffer, with whether its allocation was granted. -/
def appendFilePathFragments (granted : Bool) (filePath : List UInt8) : Except PathFailure (List UInt16) :=
  let devicePathSize := lib.getDevicePathSize filePath
  if !lib.isDevicePathValid filePath appFileMaxDevicePathBytes then .error (.returned .compromisedData)
  else if devicePathSize < sizeofDevicePathProtocol ∨ devicePathSize > appFileMaxDevicePathBytes then
    .error (.returned .compromisedData)
  else
    match measureFragments lib filePath with
    | .error failure => .error failure
    | .ok (offset, totals) =>
        if offset > devicePathSize ∨ totals.totalChars = 0 ∨
            totals.fragmentCount > maxUintn - totals.totalChars ∨
            totals.totalChars + totals.fragmentCount ≥ appFileMaxDevicePathBytes / sizeofChar16 then
          .error (.returned .notFound)
        else if !granted then .error (.returned .outOfResources)
        else
          match copyFragments lib filePath totals with
          | .error failure => .error failure
          | .ok (_, buffer) =>
              match buffer.put 0 with
              | .error failure => .error failure
              | .ok buffer => .ok buffer.result

/-! ### The directory -/

/-- The loop that keeps the index of the last backslash. -/
def findLastSeparator : List UInt16 → Nat → Option Nat → Option Nat
  | [], _, lastSeparator => lastSeparator
  | character :: rest, index, lastSeparator =>
      findLastSeparator rest (index + 1) (if character = backslash then some index else lastSeparator)

/-- What stands between the leading backslashes and the last one, with whether each allocation was granted. -/
def getImageDirectoryPath (granted grantedResult : Bool) (filePath : List UInt8) :
    Except PathFailure (List UInt16) :=
  match appendFilePathFragments lib granted filePath with
  | .error failure => .error failure
  | .ok combinedPath =>
      let path := combinedPath.takeWhile (· != 0)
      let lastSeparator := findLastSeparator path 0 none
      if path.length = 0 ∨ lastSeparator = some (path.length - 1) then .error (.returned .compromisedData)
      else
        let start := (path.takeWhile (· == backslash)).length
        let resultChars :=
          match lastSeparator with
          | none => 0
          | some lastSeparator => if lastSeparator ≤ start then 0 else lastSeparator - start
        if !grantedResult then .error (.returned .outOfResources)
        else .ok ((path.drop start).take resultChars ++ [0])

end CsmVgaSelector
