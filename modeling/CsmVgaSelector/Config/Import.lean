import CsmVgaSelector.Bbs.Discover
import CsmVgaSelector.Config.Parse

/-!
# The configuration that is used

The boot uses a copy of the parsed configuration whose texts are widened, and takes the disk to look for
from it.
-/

namespace CsmVgaSelector

/-- The flags and the numbers are copied as they are. -/
structure ProbeConfig where
  core : NcvConfigCore
  name : List UInt16
  legacyOptionDescription : List UInt16
  excludeDescription : List UInt16
  targetBbsDescription : List UInt16

def copyAsciiToUnicode (destinationChars : Nat) (source : Bytes) : Except EfiStatus (List UInt16) :=
  if source.length ≥ destinationChars ∨ !source.all isPrintable then .error .compromisedData
  else .ok (source.map UInt8.toUInt16)

def probeConfigImportCore (core : NcvConfigCore) : Except EfiStatus ProbeConfig := do
  let name ← copyAsciiToUnicode configTextBytes core.name
  let legacyOptionDescription ← copyAsciiToUnicode configTextBytes core.legacyOptionDescription
  let excludeDescription ← copyAsciiToUnicode configTextBytes core.excludeDescription
  let targetBbsDescription ← copyAsciiToUnicode configTextBytes core.targetBbsDescription
  return { core, name, legacyOptionDescription, excludeDescription, targetBbsDescription }

/-- What discovery is asked to look for. -/
def ProbeConfig.diskTarget (config : ProbeConfig) : DiskTarget where
  targetBus := config.core.targetControllerPci.bus.toUInt32
  targetDevice := config.core.targetControllerPci.device.toUInt32
  targetFunction := config.core.targetControllerPci.function.toUInt32
  targetDescription := if config.core.hasTargetBbsDescription then config.targetBbsDescription else []

end CsmVgaSelector
