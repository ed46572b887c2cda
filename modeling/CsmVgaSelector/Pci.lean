import Mathlib.Tactic.Common

/-!
# PCI addresses and endpoint policies
-/

namespace CsmVgaSelector

structure PciAddress where
  segment : UInt16
  bus : UInt8
  device : UInt8
  function : UInt8
  deriving DecidableEq, Repr, Inhabited

/-- What a configuration asks of one bit of the target's command register. -/
inductive EndpointPolicy where
  | ignore
  | on
  | off
  deriving DecidableEq, Repr, Inhabited

end CsmVgaSelector
