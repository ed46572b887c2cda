import CsmVgaSelector.Bbs.BootChoice
import CsmVgaSelector.Config.Import

/-!
# The report on the boot options

Setup goes through BootOrder too, and counts the options that boot a BBS device. Its decoder is not the one of
the boot: it does not look at the string of the BBS node, and it refuses a description with control characters.
-/

namespace CsmVgaSelector

open Peek

/-! ### One option -/

/-- What the report keeps of an option; the description has its terminator. -/
structure BbsOption where
  active : Bool
  bbsDeviceType : UInt16
  description : List UInt16
  deriving DecidableEq

/-- Whether one of so many characters from this offset on is a control character. -/
def peekHasControl (offset : Nat) : Nat → OptionRead Bool
  | 0 => return false
  | characters + 1 => do
      let character ← peekWord offset
      if character < 0x20 then return true
      else peekHasControl (offset + 2) characters

/-- The path is one BBS node and the end of the path. -/
def peekBbsPath (pathSize : Nat) : OptionRead EfiStatus := do
  let nodeType ← peek 0
  if nodeType ≠ bbsDevicePathType then return .unsupported
  else
    let subType ← peek 1
    if subType ≠ bbsBbsDp then return .unsupported
    else
      let nodeLength ← peekWord 2
      if nodeLength.toNat < 9 ∨ nodeLength.toNat + 4 ≠ pathSize then return .compromisedData
      else
        let ends ← peekIsEndEntire nodeLength.toNat
        if !ends then return .compromisedData
        else return .success

/-- The option, once its description is known to have so many characters. -/
def peekBbsOption (granted : Bool) (attributes : UInt32) (dataSize characters pathSize : Nat) :
    OptionRead (Except EfiStatus BbsOption) :=
  let pathOffset := loadOptionFixedBytes + (characters + 1) * 2
  if pathSize < 4 ∨ pathOffset > dataSize ∨ pathSize > dataSize - pathOffset then
    return .error .compromisedData
  else do
    let status ← (peekBbsPath pathSize).through (pathOffset + ·)
    if status.isError then return .error status
    else
      let control ← peekHasControl loadOptionFixedBytes characters
      if control then return .error .compromisedData
      else if !granted then return .error .outOfResources
      else
        let description ← peekWords loadOptionFixedBytes (characters + 1)
        let bbsDeviceType ← peekWord (pathOffset + 4)
        return .ok { active := attributes &&& loadOptionActive != 0, bbsDeviceType, description }

def peekParseBbsOption (granted : Bool) (dataSize : Nat) : OptionRead (Except EfiStatus BbsOption) :=
  if dataSize < loadOptionFixedBytes + 2 then return .error .compromisedData
  else do
    let attributes ← peekDoubleWord 0
    let pathLength ← peekWord 4
    match ← peekDescriptionEnd dataSize 0 with
    | none => return .error .compromisedData
    | some characters => peekBbsOption granted attributes dataSize characters pathLength.toNat

/-- The option that a variable of this content holds, if there is memory for its description. -/
def parseBbsOption (granted : Bool) (data : List UInt8) : Except EfiStatus BbsOption :=
  (peekParseBbsOption granted data.length).run fun offset => data[offset]!

/-! ### Comparisons of text -/

/-- `CharToUpper`, of the firmware library: only the letters a to z are changed. -/
def charToUpper (character : UInt16) : UInt16 :=
  if 'a'.toNat.toUInt16 ≤ character ∧ character ≤ 'z'.toNat.toUInt16 then
    character - ('a'.toNat.toUInt16 - 'A'.toNat.toUInt16)
  else character

/-- The characters before the terminator. -/
def unicodeString (text : List UInt16) : List UInt16 := text.takeWhile (· != 0)

/-- Both texts without their terminators. -/
def equalInsensitive : List UInt16 → List UInt16 → Bool
  | left :: lefts, right :: rights => charToUpper left == charToUpper right && equalInsensitive lefts rights
  | [], [] => true
  | _, _ => false

/-- Both texts without their terminators. -/
def containsInsensitive (text needle : List UInt16) : Bool :=
  if needle.length = 0 ∨ needle.length > text.length then false
  else
    (List.range (text.length - needle.length + 1)).any fun offset =>
      (List.range needle.length).all fun index =>
        charToUpper text[offset + index]! == charToUpper needle[index]!

/-! ### The report -/

/-- The variables as they are read, and whether the description of each option is granted its memory. -/
structure ReportVariables where
  bootOrder : Except EfiStatus (List UInt8)
  bootOption : UInt16 → Except EfiStatus (List UInt8)
  granted : UInt16 → Bool

/-- `BOOT_OPTION_PROBE_SUMMARY`. -/
structure BootOptionProbeSummary where
  bootOrderStatus : EfiStatus := .notReady
  bootOrderEntries : Nat := 0
  genericBbsOptions : Nat := 0
  activeGenericHardDiskOptions : Nat := 0
  configuredDescriptionMatches : Nat := 0
  excludedDescriptionMatches : Nat := 0
  deriving DecidableEq

namespace BbsOption

variable (option : BbsOption)

def isActiveHardDisk : Bool := option.active && option.bbsDeviceType == bbsHardDisk

/-- Without a configuration, or a description in it, nothing matches. -/
def isConfigured (config : Option ProbeConfig) : Bool :=
  config.any fun config => config.core.hasLegacyOptionDescription &&
    equalInsensitive (unicodeString option.description) config.legacyOptionDescription

def isExcluded (config : Option ProbeConfig) : Bool :=
  config.any fun config => config.core.hasExcludeDescription &&
    containsInsensitive (unicodeString option.description) config.excludeDescription

end BbsOption

/-- What the option gives. Of a read that ended with a warning there is no content. -/
def ReportVariables.optionOf (variables_ : ReportVariables) (number : UInt16) : Except EfiStatus BbsOption :=
  match variables_.bootOption number with
  | .error status => if status.isError then .error status else .error .invalidParameter
  | .ok data => parseBbsOption (variables_.granted number) data

namespace BootOptionProbeSummary

def add (summary : BootOptionProbeSummary) (config : Option ProbeConfig) (option : BbsOption) :
    BootOptionProbeSummary :=
  { summary with
    genericBbsOptions := summary.genericBbsOptions + 1
    activeGenericHardDiskOptions :=
      summary.activeGenericHardDiskOptions + if option.isActiveHardDisk then 1 else 0
    configuredDescriptionMatches :=
      summary.configuredDescriptionMatches + if option.isConfigured config then 1 else 0
    excludedDescriptionMatches :=
      summary.excludedDescriptionMatches + if option.isExcluded config then 1 else 0 }

/-- An option that is not there, or does not decode, is skipped. -/
def addOrder (config : Option ProbeConfig) (variables_ : ReportVariables) :
    List UInt16 → BootOptionProbeSummary → BootOptionProbeSummary
  | [], summary => summary
  | number :: rest, summary =>
      match variables_.optionOf number with
      | .error _ => addOrder config variables_ rest summary
      | .ok option => addOrder config variables_ rest (summary.add config option)

end BootOptionProbeSummary

def bootOptionsProbe (config : Option ProbeConfig) (variables_ : ReportVariables) :
    EfiStatus × BootOptionProbeSummary :=
  match variables_.bootOrder with
  | .error status =>
      (if status.isError then status else .compromisedData, { bootOrderStatus := status })
  | .ok order =>
      if order.length = 0 ∨ order.length % 2 ≠ 0 then (.compromisedData, { bootOrderStatus := .success })
      else
        (.success, BootOptionProbeSummary.addOrder config variables_ (orderWords order)
          { bootOrderStatus := .success, bootOrderEntries := order.length / 2 })

end CsmVgaSelector
