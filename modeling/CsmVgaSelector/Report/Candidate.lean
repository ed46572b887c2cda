import CsmVgaSelector.Bbs.Discover
import CsmVgaSelector.Report.Observe

/-!
# The texts around firmware strings

Two functions log strings that firmware wrote: the descriptions and device paths of the Boot####
options, and the manufacturer and description of the live row that was selected. Here they are with
the texts they log, and the boot report looking on.
-/

namespace CsmVgaSelector

/-! ### Formatting -/

/-- The digits of a number, the most significant first. -/
def digitsOf (base : Nat) : Nat → Nat → List Nat
  | 0, _ => []
  | fuel + 1, value =>
      if value < base then [value] else digitsOf base fuel (value / base) ++ [value % base]

def digitText (digit : Nat) : UInt16 := (ofString "0123456789ABCDEF").getD digit 0x30

/-- `%x`, padded with zeros to the width. -/
def hexText (width value : Nat) : Text :=
  let digits := (digitsOf 16 16 value).map digitText
  List.replicate (width - digits.length) 0x30 ++ digits

/-- `%u`. -/
def decimalText (value : Nat) : Text := (digitsOf 10 20 value).map digitText

/-- `%s`: the units before the terminator. -/
def unicodeText (units : List UInt16) : Text := units.takeWhile (· != 0)

/-- `%a`: the bytes before the terminator, widened. -/
def asciiText (bytes : List UInt8) : Text := (bytes.takeWhile (· != 0)).map UInt8.toUInt16

def sanitizeCharacter (value : UInt8) : UInt8 :=
  if 0x20 ≤ value ∧ value ≤ 0x7E then value else '.'.toNat.toUInt8

def legacyBootSanitizeAsciiForLog (input : List UInt8) (outputBytes : Nat) : List UInt8 :=
  ((input.take (outputBytes - 1)).takeWhile (· != 0)).map sanitizeCharacter

/-- The texts in order, up to the first that fails. -/
def logTexts : Text → List Text → ReportLog EfiStatus
  | text, [] => logText text
  | text, next :: rest => do
      let status ← logText text
      if status.isError then return status
      logTexts next rest

/-! ### The candidate of the enumeration -/

/-- One line of at most sixteen bytes. -/
def hexLine (label : String) (bytes : List UInt8) (line : Nat) : Text :=
  ofString "      " ++ ofString label ++ ofString "[" ++ hexText 4 (line * 16) ++ ofString "]:" ++
    ((bytes.drop (line * 16)).take 16).flatMap (fun byte => ofString " " ++ hexText 2 byte.toNat) ++
    ofString "\r\n"

def legacyBootLogHexBytes (label : String) (bytes : List UInt8) : ReportLog EfiStatus :=
  match (List.range ((bytes.length + 15) / 16)).map (hexLine label bytes) with
  | [] => logText (ofString "      " ++ ofString label ++ ofString ": <empty>\r\n")
  | first :: rest => logTexts first rest

/-- A text of the program around one firmware text. -/
def around (before : Text) (inserted : Text) (after : Text) : Text := before ++ inserted ++ after

def candidateText (candidate : BootCandidate) : Text :=
  around
    (ofString "  Boot" ++ hexText 4 candidate.number.toNat ++ ofString " active=" ++
      ofString (if candidate.isActive then "yes" else "no") ++ ofString " attributes=0x" ++
      hexText 8 candidate.attributes.toNat ++ ofString " description=\"")
    (match candidate.description with
      | some description => unicodeText description
      | none => ofString "<null string>")
    (ofString "\"\r\n")

/-- `PathText` is what `ConvertDevicePathToText` returns for the option's path. -/
def pathLine (pathText : Option Text) : Text :=
  around (ofString "      complete device path: ")
    (pathText.getD (ofString "<conversion failed>")) (ofString "\r\n")

def bbsPathText (candidate : BootCandidate) : Text :=
  ofString "      BBS type=0x" ++ hexText 4 candidate.bbsDeviceType.toNat ++
    ofString " status=0x" ++ hexText 4 candidate.bbsStatusFlag.toNat ++ ofString " string=\"" ++
    asciiText (legacyBootSanitizeAsciiForLog candidate.bbsDescription (maxStringBytes + 1)) ++
    ofString "\" path-size=0x" ++ hexText 0 (candidate.devicePath.getD []).length ++
    ofString " path-CRC32=0x" ++ hexText 8 candidate.devicePathCrc32.toNat ++ ofString "\r\n"

def optionalDataText (candidate : BootCandidate) : Text :=
  ofString "      OptionalData size=0x" ++ hexText 0 (candidate.optionalData.getD []).length ++
    ofString " CRC32=0x" ++ hexText 8 candidate.optionalDataCrc32.toNat ++
    ofString " (opaque; not interpreted)\r\n"

def legacyBootLogBootCandidate (pathText : Option Text) (candidate : BootCandidate) :
    ReportLog EfiStatus := do
  if !candidate.isLegacy then return .invalidParameter
  let status ← logTexts (candidateText candidate)
    [pathLine pathText, bbsPathText candidate, optionalDataText candidate]
  if status.isError then return status
  legacyBootLogHexBytes "BBS-path" (candidate.devicePath.getD [])

/-! ### The candidate and the selected row -/

def cannotPairText (candidate : BootCandidate) (context : BootTargetContext) : Text :=
  ofString "Boot" ++ hexText 4 candidate.number.toNat ++
    ofString " generic disk path cannot be paired with eligible live configured BBS[" ++
    decimalText context.liveBbsIndex ++ ofString "]: path-type=0x" ++
    hexText 4 candidate.bbsDeviceType.toNat ++ ofString " live-type=0x" ++
    hexText 4 context.liveBbsEntry.deviceType.toNat ++ ofString "\r\n"

def statusDiffersText (context : BootTargetContext) : Text :=
  ofString "Diagnostic: Boot" ++ hexText 4 context.bootOptionNumber.toNat ++
    ofString " BBS path status 0x" ++ hexText 4 context.bbsStatusFlag.toNat ++
    ofString " differs from live BBS[" ++ decimalText context.liveBbsIndex ++
    ofString "] status 0x" ++ hexText 4 context.liveBbsEntry.statusFlags.toNat ++
    ofString "; reference matching does not use this field\r\n"

/-- What stands before the manufacturer. -/
def selectedPrefix (context : BootTargetContext) : Text :=
  ofString "Selected generic hard-drive Boot" ++ hexText 4 context.bootOptionNumber.toNat ++
    ofString "; independently selected live Configured BBS[" ++ decimalText context.liveBbsIndex ++
    ofString "] " ++ hexText 2 context.liveBbsEntry.bus.toNat ++ ofString ":" ++
    hexText 2 context.liveBbsEntry.device.toNat ++ ofString "." ++
    hexText 0 context.liveBbsEntry.function.toNat ++ ofString " manufacturer=\""

def selectedText (context : BootTargetContext) : Text :=
  around (selectedPrefix context) (asciiText context.liveManufacturer)
    (around (ofString "\" description=\"") (asciiText context.liveDescription) (ofString "\"\r\n"))

def ownedCopiesText (context : BootTargetContext) : Text :=
  ofString "Owned copies: BBS path size=0x" ++ hexText 0 (context.bbsDevicePath.getD []).length ++
    ofString " CRC32=0x" ++ hexText 8 context.bbsDevicePathCrc32.toNat ++
    ofString "; opaque OptionalData size=0x" ++ hexText 0 (context.loadOptions.getD []).length ++
    ofString " original-CRC32=0x" ++ hexText 8 context.originalLoadOptionsCrc32.toNat ++
    ofString " effective-CRC32=0x" ++ hexText 8 context.loadOptionsCrc32.toNat ++
    ofString " byte-identical=yes\r\n"

/-- A text of one case only, whose status nobody reads. -/
def logTextIf (condition : Bool) (text : Text) : ReportLog Unit := do
  if condition then
    let _ ← logText text

/-- `LegacyBootMoveCandidateToContext` with its texts: the status, and the context it leaves. -/
def legacyBootMoveCandidateToContextLogged (rom : RomEvidence) (candidate : BootCandidate)
    (context : BootTargetContext) : ReportLog (EfiStatus × BootTargetContext) := do
  if !candidate.isLegacy || !candidate.isActive then return (.invalidParameter, context)
  if !pairsWithLiveDisk rom candidate context.liveBbsEntry then
    let _ ← logText (cannotPairText candidate context)
    return (.compromisedData, context)
  let context := takeCandidate candidate context
  logTextIf (context.bbsStatusFlag != context.liveBbsEntry.statusFlags) (statusDiffersText context)
  let status ← logTexts (selectedText context) [ownedCopiesText context]
  return (status, context)

end CsmVgaSelector
