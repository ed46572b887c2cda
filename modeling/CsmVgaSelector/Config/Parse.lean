import CsmVgaSelector.Config.Marker
import CsmVgaSelector.Pci

/-!
# The strict parser

The parser takes a configuration byte by byte. Carriage returns are dropped wherever they stand, other
control characters and over-long lines are refused, and a line that is no comment is a section header
or a key with its value. Sections and keys stand once.
-/

namespace CsmVgaSelector

inductive NcvConfigResult where
  | success
  | invalidParameter
  | unsupported
  | compromisedData
  deriving DecidableEq, Repr

/-- The sections but `NcvSectionNone`, which is `none`. -/
inductive NcvConfigSection where
  | profile
  | video
  | endpoint
  | boot
  | behavior
  | marker
  deriving DecidableEq, Repr

structure NcvConfigCore where
  marker : MarkerConfig
  hasProbe : Bool
  probe : Bool
  hasName : Bool
  hasTargetPci : Bool
  hasTargetControllerPci : Bool
  hasExpectedVendor : Bool
  hasExpectedDevice : Bool
  hasExpectedSubsystemVendor : Bool
  hasExpectedSubsystemDevice : Bool
  hasLegacyOptionDescription : Bool
  hasExcludeDescription : Bool
  hasTargetBbsDescription : Bool
  hasVerboseLog : Bool
  hasAutoBoot : Bool
  hasIoDecoding : Bool
  hasMemoryDecoding : Bool
  hasBusMastering : Bool
  verboseLog : Bool
  autoBoot : Bool
  requireReferenceSnapshotMatch : Bool
  ioDecoding : EndpointPolicy
  memoryDecoding : EndpointPolicy
  busMastering : EndpointPolicy
  targetPci : PciAddress
  targetControllerPci : PciAddress
  expectedVendor : UInt16
  expectedDevice : UInt16
  expectedSubsystemVendor : UInt16
  expectedSubsystemDevice : UInt16
  name : Bytes
  legacyOptionDescription : Bytes
  excludeDescription : Bytes
  targetBbsDescription : Bytes
  deriving DecidableEq, Repr

def zeroAddress : PciAddress where
  segment := 0
  bus := 0
  device := 0
  function := 0

def ncvConfigDefaults : NcvConfigCore where
  marker := { MarkerConfig.zero with header := ascii "NATIVE CSM BOOT PROFILE 1" }
  hasProbe := false
  probe := true
  hasName := false
  hasTargetPci := false
  hasTargetControllerPci := false
  hasExpectedVendor := false
  hasExpectedDevice := false
  hasExpectedSubsystemVendor := false
  hasExpectedSubsystemDevice := false
  hasLegacyOptionDescription := false
  hasExcludeDescription := false
  hasTargetBbsDescription := false
  hasVerboseLog := false
  hasAutoBoot := false
  hasIoDecoding := false
  hasMemoryDecoding := false
  hasBusMastering := false
  verboseLog := true
  autoBoot := true
  requireReferenceSnapshotMatch := false
  ioDecoding := .ignore
  memoryDecoding := .ignore
  busMastering := .ignore
  targetPci := zeroAddress
  targetControllerPci := zeroAddress
  expectedVendor := 0
  expectedDevice := 0
  expectedSubsystemVendor := 0
  expectedSubsystemDevice := 0
  name := []
  legacyOptionDescription := ascii "Hard Drive"
  excludeDescription := ascii "USB"
  targetBbsDescription := []

/-- `NCV_CONFIG_TEXT_BYTES`. -/
def configTextBytes : Nat := 65

/-- `NCV_CONFIG_MAX_LINE_BYTES`. -/
def configMaxLineBytes : Nat := 256

/-! ### Values -/

/-- `CopyAscii`, with what it copies. -/
def copyAscii (destinationBytes : Nat) (source : Bytes) : Option Bytes :=
  if source = [] ∨ source.length ≥ destinationBytes then none
  else if source.all isPrintable then some source
  else none

/-- The value is an array of at least `capacity` characters. -/
def ncvIniValueIsExactlyRepresentable (value : Bytes) (capacity : Nat) : Bool :=
  let text := cString value
  decide (text.length < capacity) && text != [] && decide (text.length < configTextBytes) &&
    text.all (fun character => isPrintable character && character != byte '=') &&
    text.any (· != byte ' ')

/-- The rest of a quoted description, after what has been written of it. -/
def copyQuoted (capacity : Nat) : Bytes → Bytes → Option Bytes
  | _, [] => none
  | written, character :: rest =>
      if character = byte '"' then
        if rest ≠ [] ∨ written.length ≥ capacity then none
        else if ncvIniValueIsExactlyRepresentable written capacity then some written
        else none
      else if character = byte '\\' then
        match rest with
        | [] => none
        | escaped :: rest =>
            if escaped ≠ byte '\\' ∧ escaped ≠ byte '"' then none
            else if written.length + 1 ≥ capacity then none
            else copyQuoted capacity (written ++ [escaped]) rest
      else if written.length + 1 ≥ capacity ∨ !isPrintable character ∨ character = byte '=' then none
      else copyQuoted capacity (written ++ [character]) rest

def copyDiskDescription (capacity : Nat) (value : Bytes) : Option Bytes :=
  match value with
  | [] => copyAscii capacity value
  | first :: rest =>
      if first ≠ byte '"' then copyAscii capacity value else copyQuoted capacity [] rest

/-- A number of hexadecimal digits, the most significant first. -/
def hexNumber (digits : Bytes) : Option Nat :=
  digits.foldl
    (fun number character =>
      match number, hexDigit character with
      | some number, some digit => some (number * 16 + digit)
      | _, _ => none)
    (some 0)

def parseHex16 (text : Bytes) : Option UInt16 :=
  if text.length ≠ 4 then none else (hexNumber text).map UInt16.ofNat

def parsePciAddress (text : Bytes) : Option PciAddress :=
  match text with
  | [s₁, s₂, s₃, s₄, colon, b₁, b₂, colon', d₁, d₂, dot, f] =>
      if colon ≠ byte ':' ∨ colon' ≠ byte ':' ∨ dot ≠ byte '.' then none
      else
        match hexNumber [s₁, s₂, s₃, s₄], hexNumber [b₁, b₂], hexNumber [d₁, d₂], hexDigit f with
        | some segment, some bus, some device, some function =>
            if device > 31 ∨ function > 7 then none
            else
              some
                { segment := UInt16.ofNat segment
                  bus := UInt8.ofNat bus
                  device := UInt8.ofNat device
                  function := UInt8.ofNat function }
        | _, _, _, _ => none
  | _ => none

/-! ### Keys -/

/-- A key that may stand once. -/
def setOnce {α : Type} (has : Bool) (value : Option α) (set : α → NcvConfigCore) :
    Except NcvConfigResult NcvConfigCore :=
  match has, value with
  | false, some value => .ok (set value)
  | _, _ => .error .compromisedData

def parsePolicy (value : Bytes) : Option EndpointPolicy :=
  if value = ascii "On" then some .on
  else if value = ascii "Off" then some .off
  else if value = ascii "Ignore" then some .ignore
  else none

def parseBoolean (value : Bytes) : Option Bool :=
  if value = ascii "true" then some true
  else if value = ascii "false" then some false
  else none

def setMarkerKey (config : NcvConfigCore) (key value : Bytes) :
    Except NcvConfigResult NcvConfigCore :=
  match markerConfigSetValue config.marker key value with
  | some marker => .ok { config with marker := marker }
  | none => .error .compromisedData

def setProfileKey (config : NcvConfigCore) (key value : Bytes) :
    Except NcvConfigResult NcvConfigCore :=
  if key ≠ ascii "Name" then .error .compromisedData
  else
    setOnce config.hasName (copyAscii configTextBytes value) fun name =>
      { config with name := name, hasName := true }

def setVideoKey (config : NcvConfigCore) (key value : Bytes) :
    Except NcvConfigResult NcvConfigCore :=
  if key = ascii "TargetPci" then
    setOnce config.hasTargetPci (parsePciAddress value) fun address =>
      { config with targetPci := address, hasTargetPci := true }
  else if key = ascii "ExpectedVendor" then
    setOnce config.hasExpectedVendor (parseHex16 value) fun number =>
      { config with expectedVendor := number, hasExpectedVendor := true }
  else if key = ascii "ExpectedDevice" then
    setOnce config.hasExpectedDevice (parseHex16 value) fun number =>
      { config with expectedDevice := number, hasExpectedDevice := true }
  else if key = ascii "ExpectedSubsystemVendor" then
    setOnce config.hasExpectedSubsystemVendor (parseHex16 value) fun number =>
      { config with expectedSubsystemVendor := number, hasExpectedSubsystemVendor := true }
  else if key = ascii "ExpectedSubsystemDevice" then
    setOnce config.hasExpectedSubsystemDevice (parseHex16 value) fun number =>
      { config with expectedSubsystemDevice := number, hasExpectedSubsystemDevice := true }
  else .error .unsupported

def setBootKey (config : NcvConfigCore) (key value : Bytes) :
    Except NcvConfigResult NcvConfigCore :=
  if key = ascii "TargetControllerPci" then
    setOnce config.hasTargetControllerPci (parsePciAddress value) fun address =>
      { config with targetControllerPci := address, hasTargetControllerPci := true }
  else if key = ascii "LegacyOptionDescription" then
    setOnce config.hasLegacyOptionDescription (copyAscii configTextBytes value) fun text =>
      { config with legacyOptionDescription := text, hasLegacyOptionDescription := true }
  else if key = ascii "ExcludeDescription" then
    setOnce config.hasExcludeDescription (copyAscii configTextBytes value) fun text =>
      { config with excludeDescription := text, hasExcludeDescription := true }
  else if key = ascii "TargetBbsDescription" then
    setOnce config.hasTargetBbsDescription (copyDiskDescription configTextBytes value) fun text =>
      { config with targetBbsDescription := text, hasTargetBbsDescription := true }
  else .error .unsupported

def setEndpointKey (config : NcvConfigCore) (key value : Bytes) :
    Except NcvConfigResult NcvConfigCore :=
  if key = ascii "IoDecoding" then
    setOnce config.hasIoDecoding (parsePolicy value) fun policy =>
      { config with ioDecoding := policy, hasIoDecoding := true }
  else if key = ascii "MemoryDecoding" then
    setOnce config.hasMemoryDecoding (parsePolicy value) fun policy =>
      { config with memoryDecoding := policy, hasMemoryDecoding := true }
  else if key = ascii "BusMastering" then
    setOnce config.hasBusMastering (parsePolicy value) fun policy =>
      { config with busMastering := policy, hasBusMastering := true }
  else .error .unsupported

/-- Every error of this section is the same. -/
def setBehaviorKey (config : NcvConfigCore) (key value : Bytes) :
    Except NcvConfigResult NcvConfigCore :=
  if key = ascii "Probe" then
    setOnce config.hasProbe (parseBoolean value) fun flag =>
      { config with probe := flag, hasProbe := true }
  else if key = ascii "VerboseLog" then
    setOnce config.hasVerboseLog (parseBoolean value) fun flag =>
      { config with verboseLog := flag, hasVerboseLog := true }
  else if key = ascii "AutoBoot" then
    setOnce config.hasAutoBoot (parseBoolean value) fun flag =>
      { config with autoBoot := flag, hasAutoBoot := true }
  else .error .compromisedData

def setKeyValue (config : NcvConfigCore) (current : NcvConfigSection) (key value : Bytes) :
    Except NcvConfigResult NcvConfigCore :=
  match current with
  | .marker => setMarkerKey config key value
  | .profile => setProfileKey config key value
  | .video => setVideoKey config key value
  | .boot => setBootKey config key value
  | .endpoint => setEndpointKey config key value
  | .behavior => setBehaviorKey config key value

/-! ### Lines -/

structure ParseState where
  config : NcvConfigCore
  current : Option NcvConfigSection
  sectionSeen : List NcvConfigSection
  line : Bytes
  deriving DecidableEq

def parseStart (config : NcvConfigCore) : ParseState where
  config := config
  current := none
  sectionSeen := []
  line := []

def sectionHeader : NcvConfigSection → Bytes
  | .profile => ascii "[Profile]"
  | .video => ascii "[Video]"
  | .endpoint => ascii "[Endpoint]"
  | .boot => ascii "[Boot]"
  | .marker => ascii "[Marker]"
  | .behavior => ascii "[Behavior]"

def setSection (text : Bytes) : Except NcvConfigResult NcvConfigSection :=
  match [NcvConfigSection.profile, .video, .endpoint, .boot, .marker, .behavior].find?
      fun header => text == sectionHeader header with
  | some header => .ok header
  | none => .error .unsupported

/-- The two sides of the only equals sign. -/
def splitEquals (line : Bytes) : Option (Bytes × Bytes) :=
  match line.dropWhile (· != byte '=') with
  | [] => none
  | _ :: value =>
      if byte '=' ∈ value then none
      else some (trim (line.takeWhile (· != byte '=')), trim value)

def parseHeader (state : ParseState) (line : Bytes) : Except NcvConfigResult ParseState := do
  let header ← setSection line
  if header ∈ state.sectionSeen then .error .compromisedData
  else
    .ok { state with current := some header, sectionSeen := header :: state.sectionSeen }

def parseKeyValue (state : ParseState) (line : Bytes) : Except NcvConfigResult ParseState :=
  match state.current, splitEquals line with
  | some current, some (key, value) =>
      if key = [] ∨ value = [] then .error .compromisedData
      else do
        let config ← setKeyValue state.config current key value
        .ok { state with config := config }
  | _, _ => .error .compromisedData

/-- A whole line, trimmed. -/
def parseLine (state : ParseState) (line : Bytes) : Except NcvConfigResult ParseState :=
  match line with
  | [] => .ok state
  | first :: _ =>
      if first = byte '#' ∨ first = byte ';' then .ok state
      else if first = byte '[' then parseHeader state line
      else parseKeyValue state line

def parseByte (state : ParseState) (character : UInt8) : Except NcvConfigResult ParseState :=
  if character = carriageReturn then .ok state
  else if character ≠ lineFeed then
    if !isPrintable character ∨ state.line.length + 1 ≥ configMaxLineBytes then
      .error .compromisedData
    else .ok { state with line := state.line ++ [character] }
  else parseLine { state with line := [] } (trim state.line)

/-- The checks after the last line. -/
def finishConfig (config : NcvConfigCore) : Except NcvConfigResult NcvConfigCore :=
  if !markerConfigIsValid config.marker then .error .compromisedData
  else if !config.probe && config.hasTargetPci && config.hasTargetControllerPci &&
      config.targetPci == config.targetControllerPci then .error .compromisedData
  else .ok config

/-- The end of the text ends its last line. -/
def ncvParseConfigStrict (bytes : Bytes) (config : NcvConfigCore) :
    Except NcvConfigResult NcvConfigCore :=
  if bytes = [] then .error .invalidParameter
  else do
    let state ← (bytes ++ [lineFeed]).foldlM parseByte (parseStart config)
    finishConfig state.config

/-! ### What a boot needs -/

structure NcvBootRequirements where
  probe : Bool
  hasTargetPci : Bool
  hasTargetControllerPci : Bool
  hasIoDecoding : Bool
  hasMemoryDecoding : Bool
  hasBusMastering : Bool
  deriving DecidableEq, Repr

def ncvConfigCoreGetBootRequirements (config : NcvConfigCore) : NcvBootRequirements where
  probe := config.probe
  hasTargetPci := config.hasTargetPci
  hasTargetControllerPci := config.hasTargetControllerPci
  hasIoDecoding := config.hasIoDecoding
  hasMemoryDecoding := config.hasMemoryDecoding
  hasBusMastering := config.hasBusMastering

/-- One bit for each requirement that is not met. -/
def ncvBootRequirementsValidate (requirements : NcvBootRequirements) : UInt8 :=
  (if requirements.probe then 0x01 else 0) ||| (if !requirements.hasTargetPci then 0x02 else 0) |||
    (if !requirements.hasTargetControllerPci then 0x04 else 0) |||
    (if !requirements.hasIoDecoding then 0x08 else 0) |||
    (if !requirements.hasMemoryDecoding then 0x10 else 0) |||
    (if !requirements.hasBusMastering then 0x20 else 0)

/-- The result, and what is missing. -/
def ncvValidateConfigMode (config : NcvConfigCore) : NcvConfigResult × UInt8 :=
  if !config.hasProbe then (.compromisedData, 0)
  else if config.probe then (.success, 0)
  else
    let missing := ncvBootRequirementsValidate (ncvConfigCoreGetBootRequirements config)
    (if missing ≠ 0 then .compromisedData else .success, missing)

end CsmVgaSelector
