import CsmVgaSelector.Config.Parse

/-!
# Candidates and the generated configuration

First-run discovery collects displays and disks, selects one of each where it can, and writes a
configuration in which the selected ones are active and all others are comments. What firmware calls
the disks goes into comments character by character; only the selected disk's description becomes a
value, quoted where its blanks would be trimmed.
-/

namespace CsmVgaSelector

/-- `NCV_MAX_DISPLAY_CANDIDATES`. -/
def maxDisplayCandidates : Nat := 32

/-- `NCV_MAX_STORAGE_CANDIDATES`. -/
def maxStorageCandidates : Nat := 64

/-- `NCV_CANDIDATE_STRING_BYTES`. -/
def candidateStringBytes : Nat := 129

/-- `NCV_ENCODED_DESCRIPTION_BYTES`. -/
def encodedDescriptionBytes : Nat := 2 * (configTextBytes - 1) + 3

/-- `NCV_CANDIDATE_INI_BYTES`. -/
def candidateIniBytes : Nat := 65536

/-- An array of `NCV_CANDIDATE_STRING_BYTES` characters, which may lack a terminator. -/
structure CandidateString where
  array : Bytes
  length_eq : array.length = candidateStringBytes
  deriving DecidableEq

structure NcvDisplayCandidate where
  address : PciAddress
  rawSegment : UInt64
  rawBus : UInt64
  rawDevice : UInt64
  rawFunction : UInt64
  vendor : UInt16
  deviceId : UInt16
  subsystemVendor : UInt16
  subsystemDevice : UInt16
  addressValid : Bool
  gopAssociated : Bool
  gopAssociationKnown : Bool
  activeLegacyVgaOwner : Bool
  activeLegacyVgaOwnerKnown : Bool
  optionRomExposed : Bool
  acceptedLegacyRom : Bool
  pathDiscovered : Bool
  pathValidated : Bool
  eligible : Bool
  selected : Bool
  deriving DecidableEq

structure NcvStorageCandidate where
  bbsIndex : UInt64
  address : PciAddress
  rawBus : UInt32
  rawDevice : UInt32
  rawFunction : UInt32
  baseClass : UInt8
  subClass : UInt8
  manufacturer : CandidateString
  description : CandidateString
  addressValid : Bool
  usb : Bool
  firmwareStatusKnown : Bool
  firmwareStatus : UInt16
  firmwarePriority : UInt16
  identityAmbiguous : Bool
  eligible : Bool
  selected : Bool
  deriving DecidableEq

/-- Why one of the formatting functions failed. -/
inductive NcvFailure where
  | invalid
  | capacity
  deriving DecidableEq, Repr

/-! ### Descriptions -/

/-- The characters of a description between quotes. -/
def escapeDescription (text : Bytes) : Bytes :=
  text.flatMap fun character =>
    if character = byte '"' ∨ character = byte '\\' then [byte '\\', character] else [character]

def encodeDescription (text : Bytes) : Bytes :=
  if text.head? = some (byte ' ') ∨ text.head? = some (byte '"') ∨
      text.getLast? = some (byte ' ') then
    [byte '"'] ++ escapeDescription text ++ [byte '"']
  else text

def ncvEncodeDiskDescription (value : Bytes) (capacity : Nat) : Except NcvFailure Bytes :=
  if capacity = 0 ∨ !ncvIniValueIsExactlyRepresentable value configTextBytes then .error .invalid
  else
    let text := (NcvText.empty capacity).putText (encodeDescription (cString value))
    if text.failed then .error .capacity else .ok text.data

/-- What `PutCommentText` puts. -/
def commentText (array : Bytes) (capacity : Nat) : Bytes :=
  let text := cString (array.take capacity)
  text.map (fun character => if isPrintable character then character else byte '.') ++
    if text.length < capacity then [] else ascii "<unterminated>"

/-- What `PutBdf` puts. -/
def bdfText (address : PciAddress) : Bytes :=
  putHex address.segment.toNat 4 ++ [byte ':'] ++ putHex address.bus.toNat 2 ++ [byte ':'] ++
    putHex address.device.toNat 2 ++ [byte '.'] ++ putHex address.function.toNat 1

/-! ### Selections -/

/-- A selection is an index, or `none` for `NCV_NO_SELECTION`. -/
def validateSelections (displays : List NcvDisplayCandidate) (selectedDisplay : Option Nat)
    (storage : List NcvStorageCandidate) (selectedStorage : Option Nat) : Bool :=
  decide (displays.length ≤ maxDisplayCandidates) &&
    decide (storage.length ≤ maxStorageCandidates) &&
    (match selectedDisplay with
      | none => displays.countP (·.selected) == 0
      | some index =>
          match displays[index]? with
          | none => false
          | some display =>
              displays.countP (·.selected) == 1 && display.selected && display.eligible &&
                display.addressValid) &&
    match selectedStorage with
    | none => storage.countP (·.selected) == 0
    | some index =>
        match storage[index]? with
        | none => false
        | some item =>
            storage.countP (·.selected) == 1 && item.selected && item.eligible &&
              item.addressValid &&
              ncvIniValueIsExactlyRepresentable item.description.array candidateStringBytes

/-! ### The generated configuration, line by line -/

def headingLines (complete : Bool) : List Bytes :=
  [ascii "# Generated by Native CSM VGA Selector 1.2 read-only discovery."] ++
    (if complete then
      [ascii "# One display and one storage candidate are selected below.",
        ascii "# To select another candidate, comment the active setting and",
        ascii "# uncomment the desired setting."]
    else
      [ascii "# This Probe-only result is not boot-ready because at least one",
        ascii "# candidate category has no eligible automatic selection."]) ++
    [[], ascii "[Marker]", ascii "Enabled=false", [], ascii "[Behavior]", ascii "Probe=false", [],
      ascii "[Video]"]

def yesNo (flag : Bool) : Bytes := if flag then ascii "yes" else ascii "no"

/-- The number a candidate has in the comments, counted from one. -/
def candidateTitle (title : String) (index : Nat) (selected : Bool) : Bytes :=
  ascii title ++ putDec (index + 1) ++ if selected then ascii " - selected" else []

/-- A setting stands in a comment where its candidate is not selected. -/
def settingLine (selected : Bool) (key : String) (value : Bytes) : Bytes :=
  (if selected then [] else ascii "# ") ++ ascii key ++ value

def displayLines (index : Nat) (display : NcvDisplayCandidate) (selected : Bool) : List Bytes :=
  [candidateTitle "# Display candidate " index selected,
    ascii "# PCI identity: " ++ putHex display.vendor.toNat 4 ++ [byte ':'] ++
      putHex display.deviceId.toNat 4 ++ ascii " subsystem " ++
      putHex display.subsystemVendor.toNat 4 ++ [byte ':'] ++
      putHex display.subsystemDevice.toNat 4,
    ascii "# GOP association: " ++
      (if !display.gopAssociationKnown then ascii "unknown (ranked conservatively)"
        else yesNo display.gopAssociated),
    ascii "# Active legacy VGA owner: " ++
      (if !display.activeLegacyVgaOwnerKnown then
        ascii "unknown (ranked conservatively as active)"
        else yesNo display.activeLegacyVgaOwner),
    ascii "# Option ROM exposed: " ++ yesNo display.optionRomExposed,
    ascii "# Valid legacy x86 ROM: " ++ yesNo display.acceptedLegacyRom,
    ascii "# Upstream path discovered: " ++ yesNo display.pathDiscovered,
    ascii "# Upstream path validation: " ++
      (if display.pathValidated then ascii "passed" else ascii "failed"),
    if display.addressValid then settingLine selected "TargetPci=" (bdfText display.address)
    else
      ascii "# PCI location unavailable: segment=0x" ++ putHex display.rawSegment.toNat 16 ++
        ascii " bus=0x" ++ putHex display.rawBus.toNat 16 ++
        ascii " device=0x" ++ putHex display.rawDevice.toNat 16 ++
        ascii " function=0x" ++ putHex display.rawFunction.toNat 16 ++
        ascii "; no TargetPci emitted",
    []]

def endpointLines : List Bytes :=
  [ascii "[Endpoint]", ascii "IoDecoding=On", ascii "MemoryDecoding=On",
    ascii "BusMastering=Ignore", [], ascii "[Boot]"]

/-- A description that cannot be a value stays a comment. -/
def descriptionText (description : CandidateString) : Bytes :=
  match ncvEncodeDiskDescription description.array encodedDescriptionBytes with
  | .ok encoded => encoded
  | .error _ => commentText description.array candidateStringBytes

def storageLines (index : Nat) (item : NcvStorageCandidate) (selected : Bool) : List Bytes :=
  [candidateTitle "# Storage candidate " index selected,
    ascii "# Manufacturer: " ++ commentText item.manufacturer.array candidateStringBytes,
    ascii "# Model: " ++ commentText item.description.array candidateStringBytes,
    ascii "# BBS index: " ++ putDec item.bbsIndex.toNat,
    ascii "# Controller type: " ++ (if item.usb then ascii "USB" else ascii "non-USB"),
    if item.addressValid then
      settingLine selected "TargetControllerPci=" (bdfText item.address)
    else
      ascii "# Invalid BBS PCI location: bus=0x" ++ putHex item.rawBus.toNat 8 ++
        ascii " device=0x" ++ putHex item.rawDevice.toNat 8 ++
        ascii " function=0x" ++ putHex item.rawFunction.toNat 8,
    settingLine selected "TargetBbsDescription=" (descriptionText item.description),
    []]

/-- All lines, in order. A candidate is shown as selected only if both selections exist. -/
def candidateIniLines (displays : List NcvDisplayCandidate) (selectedDisplay : Option Nat)
    (storage : List NcvStorageCandidate) (selectedStorage : Option Nat) : List Bytes :=
  let complete := selectedDisplay.isSome && selectedStorage.isSome
  headingLines complete ++
    (displays.mapIdx fun index display =>
      displayLines index display (complete && selectedDisplay == some index)).flatten ++
    endpointLines ++
    (storage.mapIdx fun index item =>
      storageLines index item (complete && selectedStorage == some index)).flatten

/-- Every line ends in a carriage return and a line feed. -/
def textOfLines (lines : List Bytes) : Bytes :=
  lines.flatMap fun line => line ++ [carriageReturn, lineFeed]

def ncvFormatCandidateIni (displays : List NcvDisplayCandidate) (selectedDisplay : Option Nat)
    (storage : List NcvStorageCandidate) (selectedStorage : Option Nat) (capacity : Nat) :
    Except NcvFailure Bytes :=
  if capacity = 0 ∨ !validateSelections displays selectedDisplay storage selectedStorage then
    .error .invalid
  else
    let text := (NcvText.empty capacity).putText
      (textOfLines (candidateIniLines displays selectedDisplay storage selectedStorage))
    if text.failed then .error .capacity else .ok text.data

end CsmVgaSelector
