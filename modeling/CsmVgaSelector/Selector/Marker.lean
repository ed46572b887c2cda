import CsmVgaSelector.Selector.State

/-!
# The menu marker

A file of 512 bytes on the marker's partition names the profile that a boot menu shows. It is written
before the display is switched, and what it held is put back when the boot returns.
-/

namespace CsmVgaSelector

open Halting SelectorProg

def markerBytes : Nat := 512

def markerConfigure (config : MarkerConfig) : SelectorProg Unit := do
  updateMarker fun marker => { marker with configuration := config, attempted := false }
  note .markerConfigured

/-- The file systems on the marker's partition. A device path is known by whether it matches. -/
def matchingHandles : Nat → SelectorProg Nat
  | 0 => return 0
  | count + 1 => do
      let path ← call
      let found ← matchingHandles count
      return if !path.status.isError && path.granted then found + 1 else found

/-- What of the marker is open. -/
structure OpenMarker where
  root : Bool
  file : Bool

def openMarker : SelectorProg (EfiStatus × OpenMarker) := do
  let located ← call
  if located.status.isError then return (located.status, ⟨false, false⟩)
  let found ← matchingHandles located.count
  if found ≠ 1 then return (.noMapping, ⟨false, false⟩)
  let fileSystem ← service
  if fileSystem.isError then return (fileSystem, ⟨false, false⟩)
  let volume ← service
  if volume.isError then return (volume, ⟨false, false⟩)
  let file ← service
  return (file, ⟨true, !file.isError⟩)

/-- The status, and what was read into the buffer. -/
def readExact : SelectorProg (EfiStatus × Option Bytes) := do
  let position ← service
  if position.isError then return (position, none)
  let bytes ← call
  if bytes.status.isError then return (bytes.status, some bytes.data)
  if bytes.count ≠ markerBytes then return (.badBufferSize, some bytes.data)
  let extra ← call
  if !extra.status.isError && extra.count ≠ 0 then return (.badBufferSize, some bytes.data)
  return (extra.status, some bytes.data)

def writeExact (bytes : Bytes) : SelectorProg EfiStatus := do
  let position ← service
  if position.isError then return position
  let write ← call
  if write.status.isError then return write.status
  if write.count ≠ markerBytes then return .deviceError
  let flush ← service
  if flush.isError then return flush
  let (status, verify) ← readExact
  if !status.isError && verify ≠ some bytes then return .deviceError
  return status

/-- A status that is already an error is kept. -/
def closeIf (isOpen : Bool) (status : EfiStatus) : SelectorProg EfiStatus := do
  if !isOpen then return status
  let closed ← service
  return if status.isError then status else closed

def closeMarker (opened : OpenMarker) (status : EfiStatus) : SelectorProg EfiStatus := do
  closeIf opened.root (← closeIf opened.file status)

def markerProfileKey : Bytes := ascii "PROFILE="

def isMarkerFile (config : MarkerConfig) (original : Bytes) : Bool :=
  original.take config.header.length == config.header &&
    original[config.header.length]? == some lineFeed &&
    (original.drop (config.header.length + 1)).take markerProfileKey.length == markerProfileKey

def markerText (config : MarkerConfig) : Bytes :=
  let text := config.header ++ [lineFeed] ++ markerProfileKey ++ config.profile
  text ++ List.replicate (markerBytes - 1 - text.length) (byte ' ') ++ [lineFeed]

/-- `Original` is read. -/
def saveOriginal : SelectorProg EfiStatus := do
  let (status, bytes) ← readExact
  match bytes with
  | none => return status
  | some original =>
      updateMarker fun marker => { marker with original }
      note .originalSaved
      return status

/-- What `MarkerApply` does with the open marker. -/
def writeMarker : SelectorProg EfiStatus := do
  let status ← saveOriginal
  if status.isError then return status
  let marker := (← getState).marker
  if !isMarkerFile marker.configuration marker.original then return .compromisedData
  let written := markerText marker.configuration
  updateMarker fun marker => { marker with written, attempted := true }
  note .markerWritten
  writeExact written

def markerApply : SelectorProg EfiStatus := do
  let configuration := (← getState).marker.configuration
  if configuration.enabled = 0 then return .success
  if !markerConfigIsValid configuration then return .invalidParameter
  let (status, opened) ← openMarker
  if status.isError then closeMarker opened status
  else closeMarker opened (← writeMarker)

def putBackMarker : SelectorProg EfiStatus := do
  let (status, opened) ← openMarker
  let status ← if status.isError then pure status else writeExact (← getState).marker.original
  let status ← closeMarker opened status
  if status.isError then return status
  updateMarker fun marker => { marker with attempted := false }
  note .markerPutBack
  return status

def markerRestore : SelectorProg EfiStatus := do
  let status ← if (← getState).marker.attempted then putBackMarker else pure .success
  note (.markerRestored status)
  return status

end CsmVgaSelector
