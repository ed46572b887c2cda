import CsmVgaSelector.Bytes
import CsmVgaSelector.Status

/-!
# The option ROM of the target

An exposed ROM is a chain of images, each with a header that points to its PCI data. Every image of the
chain is checked, whatever it is for; the first one for the target whose two checksums hold is the one the
boot uses. Offsets never pass the end of the ROM, which the address space holds, so the tests for overflow
of the native word are left out, as are the messages logged on the way.
-/

namespace CsmVgaSelector

def optionRomBlockSize : Nat := 512
def optionRomLastImage : UInt8 := 0x80
def optionRomIndicatorReserved : UInt8 := 0x7F
def optionRomConfigHeaderSize : Nat := 42
def optionRomConfigNameSize : Nat := 40

def pciCodeTypePcatImage : UInt8 := 0
def pciCodeTypeEfiImage : UInt8 := 3

/-- `PCI_DATA_STRUCTURE` with the fields of `PCI_3_0_DATA_STRUCTURE`, which count from revision 3. -/
structure PciDataStructure where
  vendorId : UInt16
  deviceId : UInt16
  deviceListOffset : UInt16
  length : UInt16
  revision : UInt8
  imageLength : UInt16
  codeRevision : UInt16
  codeType : UInt8
  indicator : UInt8
  maxRuntimeImageLength : UInt16
  configUtilityCodeHeaderOffset : UInt16
  dmtfClpEntryPointOffset : UInt16

def pciDataStructure (bytes : List UInt8) : PciDataStructure where
  vendorId := readLe16 bytes 0x04
  deviceId := readLe16 bytes 0x06
  deviceListOffset := readLe16 bytes 0x08
  length := readLe16 bytes 0x0A
  revision := bytes[0x0C]!
  imageLength := readLe16 bytes 0x10
  codeRevision := readLe16 bytes 0x12
  codeType := bytes[0x14]!
  indicator := bytes[0x15]!
  maxRuntimeImageLength := readLe16 bytes 0x16
  configUtilityCodeHeaderOffset := readLe16 bytes 0x18
  dmtfClpEntryPointOffset := readLe16 bytes 0x1A

structure OptionRomValidation where
  imageCount : Nat := 0
  matchingLegacyCandidateCount : Nat := 0
  matchingLegacyImageOffset : Nat := 0
  matchingLegacyImageSize : Nat := 0
  matchingLegacyPcirOffset : Nat := 0
  matchingLegacyCodeRevision : UInt16 := 0
  matchingLegacyPcirRevision : UInt8 := 0
  finalIndicatorSeen : Bool := false
  matchingLegacyImageFound : Bool := false
  matchingUefiImageSeen : Bool := false
  deriving DecidableEq, Repr

def rangeIsInside (containerSize offset length : Nat) : Bool :=
  offset ≤ containerSize && length ≤ containerSize - offset

section

variable (rom : List UInt8)

def readRomBytes (offset length : Nat) : Option (List UInt8) :=
  if length = 0 ∨ rangeIsInside rom.length offset length = false then none
  else some ((rom.drop offset).take length)

def computeChecksum (offset length : Nat) : Option UInt8 :=
  if length = 0 ∨ rangeIsInside rom.length offset length = false then none
  else some (((rom.drop offset).take length).foldl (· + ·) 0)

/-! ### PCI 3.0 -/

/-- The entries of a device list, so many at most, up to its terminator. -/
def scanDeviceList (expectedDeviceId : UInt16) : Nat → Nat → Bool → Except EfiStatus Bool
  | 0, _, _ => .error .compromisedData
  | entries + 1, offset, listMatch =>
      match readRomBytes rom offset 2 with
      | none => .error .compromisedData
      | some bytes =>
          if readLe16 bytes 0 = 0 then .ok listMatch
          else
            scanDeviceList expectedDeviceId entries (offset + 2)
              (listMatch || readLe16 bytes 0 == expectedDeviceId)

/-- Whether the structure's device list names the device. -/
def parsePci30DeviceList (imageOffset imageSize pcirOffset : Nat) (pcir : PciDataStructure)
    (expectedDeviceId : UInt16) : Except EfiStatus Bool :=
  if pcir.deviceListOffset = 0 then .ok false
  else if pcir.deviceListOffset.toNat % 2 ≠ 0 ∨ pcir.deviceListOffset.toNat < pcir.length.toNat then
    .error .compromisedData
  else
    let absoluteOffset := pcirOffset + pcir.deviceListOffset.toNat
    let imageEnd := imageOffset + imageSize
    if absoluteOffset < imageOffset ∨ rangeIsInside rom.length absoluteOffset 2 = false then
      .error .compromisedData
    else if absoluteOffset > imageEnd ∨ 2 > imageEnd - absoluteOffset then .error .compromisedData
    else scanDeviceList rom expectedDeviceId ((imageEnd - absoluteOffset) / 2) absoluteOffset false

/-- The identifier ends within its field, and is printable up to its end. -/
def configNameIsValid : List UInt8 → Bool
  | [] => false
  | character :: rest =>
      character == 0 || !(character < 0x20 || character > 0x7E) && configNameIsValid rest

/-- The Configuration Utility header at this offset of the image. -/
def validateConfigUtility (imageOffset imageSize configOffset : Nat) : EfiStatus :=
  if rangeIsInside imageSize configOffset optionRomConfigHeaderSize = false then .compromisedData
  else
    match readRomBytes rom (imageOffset + configOffset) optionRomConfigHeaderSize with
    | none => .compromisedData
    | some header =>
        if header[0]! = 0 then .compromisedData
        else if header[41]! ≠ 1 then .compromisedData
        else if rangeIsInside imageSize configOffset (header[0]!.toNat * optionRomBlockSize) = false then
          .compromisedData
        else if configNameIsValid ((header.drop 1).take optionRomConfigNameSize) then .success
        else .compromisedData

def validatePci30Metadata (imageOffset imageSize : Nat) (pcir : PciDataStructure) : EfiStatus :=
  if pcir.maxRuntimeImageLength > pcir.imageLength then .compromisedData
  else
    let configStatus :=
      if pcir.configUtilityCodeHeaderOffset = 0 then .success
      else validateConfigUtility rom imageOffset imageSize pcir.configUtilityCodeHeaderOffset.toNat
    if configStatus.isError then configStatus
    else if pcir.dmtfClpEntryPointOffset ≠ 0 ∧
        rangeIsInside imageSize pcir.dmtfClpEntryPointOffset.toNat 1 = false then
      .compromisedData
    else .success

/-- The PCI data in full, and whether a device list names the device. -/
def readPcir (imageOffset imageSize pcirOffset : Nat) (pcir22 : PciDataStructure)
    (expectedDeviceId : UInt16) : Except EfiStatus (PciDataStructure × Bool) :=
  if pcir22.revision < 3 then .ok (pcir22, false)
  else if pcir22.length.toNat < 0x1C then .error .compromisedData
  else
    match readRomBytes rom pcirOffset 0x1C with
    | none => .error .compromisedData
    | some bytes =>
        let pcir30 := pciDataStructure bytes
        match parsePci30DeviceList rom imageOffset imageSize pcirOffset pcir30 expectedDeviceId with
        | .error status => .error status
        | .ok listMatch =>
            if (validatePci30Metadata rom imageOffset imageSize pcir30).isError then
              .error (validatePci30Metadata rom imageOffset imageSize pcir30)
            else .ok (pcir30, listMatch)

/-! ### One image -/

/-- The legacy size of an image, and whether its checksum holds. -/
def logAndValidateLegacyHeader (imageOffset imageSize : Nat) : Except EfiStatus (Nat × Bool) :=
  match readRomBytes rom (imageOffset + 2) 1 with
  | none => .error .compromisedData
  | some bytes =>
      let legacySize := bytes[0]!.toNat * optionRomBlockSize
      if bytes[0]! = 0 then .error .compromisedData
      else if legacySize > imageSize ∨ rangeIsInside rom.length imageOffset legacySize = false then
        .error .compromisedData
      else
        match computeChecksum rom imageOffset legacySize with
        | none => .error .compromisedData
        | some checksum => .ok (legacySize, checksum == 0)

/-- The PCI data lies in the legacy region, and in the run-time region when it has a size. -/
def validatePcatLayout (relativePcirOffset legacySize : Nat) (pcir : PciDataStructure) : EfiStatus :=
  if rangeIsInside legacySize relativePcirOffset pcir.length.toNat = false then .compromisedData
  else if pcir.revision < 3 then .success
  else
    let maximumRuntimeSize := pcir.maxRuntimeImageLength.toNat * optionRomBlockSize
    if maximumRuntimeSize > legacySize then .compromisedData
    else if maximumRuntimeSize ≠ 0 ∧
        rangeIsInside maximumRuntimeSize relativePcirOffset pcir.length.toNat = false then
      .compromisedData
    else .success

/-- The legacy part of a PCAT image: whether its checksum holds. -/
def validatePcat (imageOffset imageSize relativePcirOffset : Nat) (pcir : PciDataStructure) :
    Except EfiStatus Bool :=
  if pcir.codeType ≠ pciCodeTypePcatImage then .ok false
  else
    match logAndValidateLegacyHeader rom imageOffset imageSize with
    | .error status => .error status
    | .ok (legacySize, checksumValid) =>
        if (validatePcatLayout relativePcirOffset legacySize pcir).isError then
          .error (validatePcatLayout relativePcirOffset legacySize pcir)
        else .ok checksumValid

/-- What the walk needs of an image that passed its checks. -/
structure RomImage where
  size : Nat
  pcirOffset : Nat
  pcir : PciDataStructure
  deviceMatches : Bool
  checksumsValid : Bool

def readImage (imageOffset : Nat) (expectedDeviceId : UInt16) : Except EfiStatus RomImage :=
  match readRomBytes rom imageOffset 0x1A with
  | none => .error .compromisedData
  | some header =>
      let relativePcirOffset := (readLe16 header 0x18).toNat
      if readLe16 header 0 ≠ 0xAA55 then .error .compromisedData
      else if relativePcirOffset < 0x1A ∨ relativePcirOffset % 4 ≠ 0 then .error .compromisedData
      else
        match readRomBytes rom (imageOffset + relativePcirOffset) 0x18 with
        | none => .error .compromisedData
        | some bytes =>
            let pcir22 := pciDataStructure (bytes ++ [0, 0, 0, 0])
            let imageSize := pcir22.imageLength.toNat * optionRomBlockSize
            if bytes.take 4 ≠ [0x50, 0x43, 0x49, 0x52] then .error .compromisedData
            else if pcir22.imageLength = 0 then .error .compromisedData
            else if rangeIsInside rom.length imageOffset imageSize = false then .error .compromisedData
            else if pcir22.length.toNat < 0x18 ∨
                rangeIsInside imageSize relativePcirOffset pcir22.length.toNat = false then
              .error .compromisedData
            else
              match readPcir rom imageOffset imageSize (imageOffset + relativePcirOffset) pcir22
                  expectedDeviceId with
              | .error status => .error status
              | .ok (pcir, listMatch) =>
                  if pcir.indicator &&& optionRomIndicatorReserved ≠ 0 then .error .compromisedData
                  else
                    match computeChecksum rom imageOffset imageSize with
                    | none => .error .compromisedData
                    | some imageChecksum =>
                        match validatePcat rom imageOffset imageSize relativePcirOffset pcir with
                        | .error status => .error status
                        | .ok legacyChecksumValid =>
                            .ok
                              { size := imageSize
                                pcirOffset := imageOffset + relativePcirOffset
                                pcir
                                deviceMatches := pcir.deviceId == expectedDeviceId || listMatch
                                checksumsValid := imageChecksum == 0 && legacyChecksumValid }

end

/-! ### The walk -/

structure RomWalk where
  validation : OptionRomValidation := {}
  sawMatchingLegacy : Bool := false
  sawMatchingLegacyChecksumFailure : Bool := false

/-- The walk's findings with one more image. -/
def RomWalk.see (walk : RomWalk) (imageOffset : Nat) (image : RomImage) (expectedVendorId : UInt16) :
    RomWalk :=
  let validation := { walk.validation with imageCount := walk.validation.imageCount + 1 }
  let matched := image.pcir.vendorId == expectedVendorId && image.deviceMatches
  if image.pcir.codeType == pciCodeTypePcatImage && matched then
    if !image.checksumsValid then
      { validation, sawMatchingLegacy := true, sawMatchingLegacyChecksumFailure := true }
    else
      { walk with
        sawMatchingLegacy := true
        validation :=
          if validation.matchingLegacyImageFound then
            { validation with
              matchingLegacyCandidateCount := validation.matchingLegacyCandidateCount + 1 }
          else
            { validation with
              matchingLegacyCandidateCount := validation.matchingLegacyCandidateCount + 1
              matchingLegacyImageFound := true
              matchingLegacyImageOffset := imageOffset
              matchingLegacyImageSize := image.size
              matchingLegacyPcirOffset := image.pcirOffset
              matchingLegacyCodeRevision := image.pcir.codeRevision
              matchingLegacyPcirRevision := image.pcir.revision } }
  else if image.pcir.codeType == pciCodeTypeEfiImage && matched then
    { walk with validation := { validation with matchingUefiImageSeen := true } }
  else { walk with validation }

/-- The images from this offset, so many at most, up to the one marked as the last. -/
def walkImages (rom : List UInt8) (expectedVendorId expectedDeviceId : UInt16) :
    Nat → Nat → RomWalk → Except EfiStatus RomWalk
  | 0, _, walk => .ok walk
  | images + 1, imageOffset, walk =>
      match readImage rom imageOffset expectedDeviceId with
      | .error status => .error status
      | .ok image =>
          let walk := walk.see imageOffset image expectedVendorId
          let nextImageOffset := imageOffset + image.size
          if nextImageOffset ≤ imageOffset then .error .compromisedData
          else if image.pcir.indicator &&& optionRomLastImage ≠ 0 then
            if nextImageOffset ≠ rom.length then .error .compromisedData
            else .ok { walk with validation := { walk.validation with finalIndicatorSeen := true } }
          else if nextImageOffset ≥ rom.length then .error .compromisedData
          else walkImages rom expectedVendorId expectedDeviceId images nextImageOffset walk

/-- The exposed ROM at this address, of this size. -/
def optionRomParseAndValidate (address : Nat) (rom : List UInt8) (expectedRomSize : Nat)
    (expectedVendorId expectedDeviceId : UInt16) : Except EfiStatus OptionRomValidation :=
  if address = 0 ∨ expectedRomSize = 0 ∨ expectedVendorId = 0 ∨ expectedDeviceId = 0 then
    .error .invalidParameter
  else if rom.length ≠ expectedRomSize then .error .badBufferSize
  else if rom.length < optionRomBlockSize ∨ rom.length % optionRomBlockSize ≠ 0 ∨
      address > 2 ^ 64 - 1 - (rom.length - 1) then
    .error .badBufferSize
  else
    match walkImages rom expectedVendorId expectedDeviceId (rom.length / optionRomBlockSize) 0 {} with
    | .error status => .error status
    | .ok walk =>
        if !walk.validation.finalIndicatorSeen then .error .compromisedData
        else if !walk.validation.matchingLegacyImageFound then
          if walk.sawMatchingLegacyChecksumFailure || walk.sawMatchingLegacy then .error .crcError
          else if walk.validation.matchingUefiImageSeen then .error .unsupported
          else .error .notFound
        else .ok walk.validation

end CsmVgaSelector
