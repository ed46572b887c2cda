import CsmVgaSelector.Lib.Prog
import CsmVgaSelector.Selector.Marker

/-!
# The marker's file

The calls that apply and restore the marker, with the file they are made on. A call may fail at any point. A
read or a write that succeeds may transfer less than it was asked for, a write or a flush that fails may leave
anything in the file, and a read that fails anything in the buffer. It is the same file every time it is found.

Of a buffer only the bytes that were read are kept, since nothing looks behind them.
-/

namespace CsmVgaSelector

/-- The answer to one call, with a part for each kind of call. -/
structure MarkerAnswer where
  status : EfiStatus := .success
  /-- The handles that were located, or the bytes that are transferred at most. -/
  count : Nat := 0
  /-- Whether the device path is the marker's. -/
  granted : Bool := true
  /-- What a call that fails leaves in the file or the buffer. -/
  left : Bytes := []

structure MarkerFile where
  content : Bytes
  position : Nat := 0
  /-- A read of one byte has reported none before the end of the file. -/
  endMissed : Bool := false
  marker : Marker
  deriving DecidableEq

abbrev MarkerProg (α : Type) := Prog MarkerAnswer MarkerFile α

namespace MarkerFile

open Prog

def updateMarker (f : Marker → Marker) : MarkerProg Unit :=
  modify fun file => { file with marker := f file.marker }

/-- A call that only returns a status. -/
def service : MarkerProg EfiStatus := do
  let answer ← call
  return answer.status

/-- `SetPosition`, to the beginning. -/
def setPosition : MarkerProg EfiStatus := do
  let answer ← call
  if answer.status.isError then return answer.status
  modify fun file => { file with position := 0 }
  return answer.status

def read (size : Nat) : MarkerProg (EfiStatus × Bytes) := do
  let answer ← call
  if answer.status.isError then return (answer.status, answer.left)
  let file ← get
  let remaining := file.content.drop file.position
  let bytes := remaining.take (min answer.count size)
  set
    { file with
      position := file.position + bytes.length
      endMissed := file.endMissed || size == 1 && bytes.isEmpty && !remaining.isEmpty }
  return (answer.status, bytes)

/-- The status, and how many bytes were taken. -/
def write (bytes : Bytes) : MarkerProg (EfiStatus × Nat) := do
  let answer ← call
  let file ← get
  if answer.status.isError then
    set { file with content := answer.left }
    return (answer.status, 0)
  let taken := bytes.take answer.count
  set
    { file with
      content := file.content.take file.position ++ taken ++ file.content.drop (file.position + taken.length)
      position := file.position + taken.length }
  return (answer.status, taken.length)

def flush : MarkerProg EfiStatus := do
  let answer ← call
  if answer.status.isError then modify fun file => { file with content := answer.left }
  return answer.status

def matchingHandles : Nat → MarkerProg Nat
  | 0 => return 0
  | count + 1 => do
      let path ← call
      let found ← matchingHandles count
      return if !path.status.isError && path.granted then found + 1 else found

def openMarker : MarkerProg (EfiStatus × OpenMarker) := do
  let located ← call
  if located.status.isError then return (located.status, ⟨false, false⟩)
  let found ← matchingHandles located.count
  if found ≠ 1 then return (.noMapping, ⟨false, false⟩)
  let fileSystem ← service
  if fileSystem.isError then return (fileSystem, ⟨false, false⟩)
  let volume ← service
  if volume.isError then return (volume, ⟨false, false⟩)
  let file ← service
  return (file, ⟨true, !file.isError⟩)

/-- The status, and what was read into the buffer. -/
def readExact : MarkerProg (EfiStatus × Option Bytes) := do
  let position ← setPosition
  if position.isError then return (position, none)
  let (status, bytes) ← read markerBytes
  if status.isError then return (status, some bytes)
  if bytes.length ≠ markerBytes then return (.badBufferSize, some bytes)
  let (status, extra) ← read 1
  if !status.isError && extra.length ≠ 0 then return (.badBufferSize, some bytes)
  return (status, some bytes)

def writeExact (bytes : Bytes) : MarkerProg EfiStatus := do
  let position ← setPosition
  if position.isError then return position
  let (status, taken) ← write bytes
  if status.isError then return status
  if taken ≠ markerBytes then return .deviceError
  let flushed ← flush
  if flushed.isError then return flushed
  let (status, verify) ← readExact
  if !status.isError && verify ≠ some bytes then return .deviceError
  return status

/-- A status that is already an error is kept. -/
def closeIf (isOpen : Bool) (status : EfiStatus) : MarkerProg EfiStatus := do
  if !isOpen then return status
  let closed ← service
  return if status.isError then status else closed

def closeMarker (opened : OpenMarker) (status : EfiStatus) : MarkerProg EfiStatus := do
  closeIf opened.root (← closeIf opened.file status)

/-- `Original` is read. -/
def saveOriginal : MarkerProg EfiStatus := do
  let (status, bytes) ← readExact
  match bytes with
  | none => return status
  | some original =>
      updateMarker fun marker => { marker with original }
      return status

/-- What `MarkerApply` does with the open marker. -/
def writeMarker : MarkerProg EfiStatus := do
  let status ← saveOriginal
  if status.isError then return status
  let marker := (← get).marker
  if !isMarkerFile marker.configuration marker.original then return .compromisedData
  let written := markerText marker.configuration
  updateMarker fun marker => { marker with written, attempted := true }
  writeExact written

def markerApply : MarkerProg EfiStatus := do
  let configuration := (← get).marker.configuration
  if configuration.enabled = 0 then return .success
  if !markerConfigIsValid configuration then return .invalidParameter
  let (status, opened) ← openMarker
  if status.isError then closeMarker opened status
  else closeMarker opened (← writeMarker)

/-- `Original` is written, where the marker is open. -/
def writeOriginal (opened : EfiStatus) : MarkerProg EfiStatus := do
  if opened.isError then return opened
  writeExact (← get).marker.original

def putBackMarker : MarkerProg EfiStatus := do
  let (status, opened) ← openMarker
  let status ← closeMarker opened (← writeOriginal status)
  if status.isError then return status
  updateMarker fun marker => { marker with attempted := false }
  return status

def markerRestore : MarkerProg EfiStatus := do
  if (← get).marker.attempted then putBackMarker else return .success

end MarkerFile

end CsmVgaSelector
