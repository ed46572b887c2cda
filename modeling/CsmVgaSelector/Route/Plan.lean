import CsmVgaSelector.Lib.Prog
import CsmVgaSelector.Pci
import CsmVgaSelector.Status

/-!
# The VGA route

The route to the target is switched on by writing the bridge-control register of every bridge on two
paths and the command register of the target, and switched off by writing their captured originals
back. A bridge or an endpoint is marked before its register is written, and the mark is cleared when
the original has been read back.

A write may leave anything in its register, whatever it returns; a read that succeeds returns what the
register holds. The messages and checkpoints logged on the way decide nothing, and are left out.
-/

namespace CsmVgaSelector

structure PlanBridge where
  record : PciAddress
  originalBridgeControl : UInt16
  writeAttempted : Bool := false
  writeApplied : Bool := false
  deriving DecidableEq, Repr, Inhabited

structure PlanEndpoint where
  address : PciAddress
  originalCommand : UInt16
  deriving DecidableEq, Repr, Inhabited

/-- What a run plan holds for the route, with the policies of its configuration. -/
structure RuntimePlan where
  ioDecoding : EndpointPolicy
  memoryDecoding : EndpointPolicy
  busMastering : EndpointPolicy
  target : PlanEndpoint
  sharedPath : List PlanBridge
  activeExclusivePath : List PlanBridge
  targetExclusivePath : List PlanBridge
  endpointWriteAttempted : Bool := false
  endpointWriteApplied : Bool := false
  routeDirty : Bool := false
  deriving DecidableEq, Repr, Inhabited

/-- The three arrays of bridges. -/
inductive BridgePath where
  | activeExclusive
  | shared
  | targetExclusive
  deriving DecidableEq, Repr

namespace RuntimePlan

def bridges (plan : RuntimePlan) : BridgePath → List PlanBridge
  | .activeExclusive => plan.activeExclusivePath
  | .shared => plan.sharedPath
  | .targetExclusive => plan.targetExclusivePath

def modifyBridge (plan : RuntimePlan) (path : BridgePath) (index : Nat)
    (f : PlanBridge → PlanBridge) : RuntimePlan :=
  match path with
  | .activeExclusive =>
      { plan with activeExclusivePath := plan.activeExclusivePath.modify index f }
  | .shared => { plan with sharedPath := plan.sharedPath.modify index f }
  | .targetExclusive =>
      { plan with targetExclusivePath := plan.targetExclusivePath.modify index f }

end RuntimePlan

/-- The plan, and the two registers of every device that the route writes. -/
structure RouteState where
  plan : RuntimePlan
  bridgeControl : PciAddress → UInt16
  command : PciAddress → UInt16

/-- The answer to one call: its status; what a write leaves in its register when that is not the value
written, or a failed read in its variable; and whether the boot target lets itself be released. -/
structure PciAnswer where
  status : EfiStatus
  left : Option UInt16 := none
  deriving DecidableEq, Repr

abbrev RouteQuery (α : Type) := Query PciAnswer RouteState α

abbrev Route (α : Type) := Prog PciAnswer RouteState α

def pciBridgeVgaEnable : UInt16 := 0x0008

def pciCommandIo : UInt16 := 0x0001

def pciCommandMemory : UInt16 := 0x0002

def pciCommandBusMaster : UInt16 := 0x0004

/-! ### Register access -/

/-- A read of the register into a variable that holds zero. -/
def readRegister (register : RouteState → UInt16) : RouteQuery (EfiStatus × UInt16) := do
  let answer ← Query.call
  let state ← read
  return (answer.status, if answer.status.isError then answer.left.getD 0 else register state)

def readBridgeControl (bridge : PlanBridge) : RouteQuery (EfiStatus × UInt16) :=
  readRegister fun state => state.bridgeControl bridge.record

def writeBridgeControlRegister (bridge : PlanBridge) (value : UInt16) : Route EfiStatus := do
  let answer ← Prog.call
  modify fun state =>
    { state with
      bridgeControl :=
        Function.update state.bridgeControl bridge.record (answer.left.getD value) }
  return answer.status

def readCommand (endpoint : PlanEndpoint) : RouteQuery (EfiStatus × UInt16) :=
  readRegister fun state => state.command endpoint.address

def writeCommand (endpoint : PlanEndpoint) (value : UInt16) : Route EfiStatus := do
  let answer ← Prog.call
  modify fun state =>
    { state with
      command := Function.update state.command endpoint.address (answer.left.getD value) }
  return answer.status

def updatePlan (f : RuntimePlan → RuntimePlan) : Route Unit :=
  modify fun state => { state with plan := f state.plan }

/-! ### Applying -/

def routeBridgeStep (bridge : PlanBridge) (requested : UInt16) : Route Bool := do
  let writeStatus ← writeBridgeControlRegister bridge requested
  let (readStatus, actual) ← readBridgeControl bridge
  return !writeStatus.isError && !readStatus.isError && actual == requested

/-- One bridge of a path: marked, written, and marked as applied. -/
def applyBridge (path : BridgePath) (index : Nat) (requested : UInt16) : Route Bool := do
  let bridge := ((← get).plan.bridges path)[index]!
  updatePlan fun plan =>
    { plan.modifyBridge path index fun bridge => { bridge with writeAttempted := true } with
      routeDirty := true }
  if !(← routeBridgeStep bridge requested) then return false
  updatePlan fun plan =>
    { plan.modifyBridge path index fun bridge =>
        { bridge with writeAttempted := true, writeApplied := true } with
      routeDirty := true }
  return true

/-- The bridges of a path, first to last; one that is skipped is neither marked nor written. -/
def applyBridges (path : BridgePath) (request : UInt16 → UInt16) (skips : UInt16 → Bool) :
    List Nat → Route Bool
  | [] => return true
  | index :: rest => do
      let original := ((← get).plan.bridges path)[index]!.originalBridgeControl
      if skips original then return ← applyBridges path request skips rest
      if !(← applyBridge path index (request original)) then return false
      applyBridges path request skips rest

def indices (bridges : List PlanBridge) : List Nat := List.range bridges.length

def applyActiveExclusive : Route Bool := do
  applyBridges .activeExclusive (· &&& ~~~pciBridgeVgaEnable) (fun _ => false)
    (indices (← get).plan.activeExclusivePath)

/-- Shared bridges are never disabled, and one that forwards VGA already is left alone. -/
def applyShared : Route Bool := do
  applyBridges .shared (· ||| pciBridgeVgaEnable)
    (fun original => original ||| pciBridgeVgaEnable == original)
    (indices (← get).plan.sharedPath)

def applyTargetExclusive : Route Bool := do
  applyBridges .targetExclusive (· ||| pciBridgeVgaEnable) (fun _ => false)
    (indices (← get).plan.targetExclusivePath)

/-- One policy's bit in a command. -/
def EndpointPolicy.apply (policy : EndpointPolicy) (bit command : UInt16) : UInt16 :=
  match policy with
  | ignore => command
  | on => command ||| bit
  | off => command &&& ~~~bit

def requiredEndpointCommand (plan : RuntimePlan) : UInt16 :=
  plan.busMastering.apply pciCommandBusMaster
    (plan.memoryDecoding.apply pciCommandMemory
      (plan.ioDecoding.apply pciCommandIo plan.target.originalCommand))

/-- The bit of a policy that has a say. -/
def EndpointPolicy.mask (policy : EndpointPolicy) (bit : UInt16) : UInt16 :=
  if policy = ignore then 0 else bit

def requiredAttributes (plan : RuntimePlan) : UInt16 :=
  plan.ioDecoding.mask pciCommandIo ||| plan.memoryDecoding.mask pciCommandMemory |||
    plan.busMastering.mask pciCommandBusMaster

/-- The command fails the policy: its bit is the other one. -/
def EndpointPolicy.violated (policy : EndpointPolicy) (bit command : UInt16) : Bool :=
  match policy with
  | ignore => false
  | on => command &&& bit == 0
  | off => command &&& bit != 0

/-- The command read back is what the policies ask for, and the original outside of them. -/
def commandAccepted (plan : RuntimePlan) (command : UInt16) : Bool :=
  command &&& ~~~requiredAttributes plan ==
      plan.target.originalCommand &&& ~~~requiredAttributes plan &&
    !plan.ioDecoding.violated pciCommandIo command &&
    !plan.memoryDecoding.violated pciCommandMemory command &&
    !plan.busMastering.violated pciCommandBusMaster command

def applyEndpoint : Route Bool := do
  let plan := (← get).plan
  updatePlan fun plan => { plan with endpointWriteAttempted := true, routeDirty := true }
  let writeStatus ← writeCommand plan.target (requiredEndpointCommand plan)
  let (readStatus, actualCommand) ← readCommand plan.target
  let applied := actualCommand != plan.target.originalCommand
  updatePlan fun plan =>
    { plan with
      endpointWriteApplied := applied
      routeDirty := plan.routeDirty || applied }
  return !writeStatus.isError && !readStatus.isError && commandAccepted plan actualCommand

def routeApply : Route Bool := do
  if !(← applyActiveExclusive) then return false
  if !(← applyShared) then return false
  if !(← applyTargetExclusive) then return false
  applyEndpoint

/-! ### Restoring -/

def writeBridgeControl (bridge : PlanBridge) (value : UInt16) : Route Bool := do
  let status ← writeBridgeControlRegister bridge value
  if status.isError then return false
  let (status, actual) ← readBridgeControl bridge
  return !status.isError && actual == value

/-- One marked bridge: its original written, read back twice, and the marks cleared. -/
def restoreBridge (path : BridgePath) (index : Nat) : Route Bool := do
  let bridge := ((← get).plan.bridges path)[index]!
  if !(← writeBridgeControl bridge bridge.originalBridgeControl) then return false
  let (status, actual) ← readBridgeControl bridge
  if status.isError || actual != bridge.originalBridgeControl then return false
  updatePlan fun plan =>
    plan.modifyBridge path index fun bridge =>
      { bridge with writeApplied := false, writeAttempted := false }
  return true

/-- The marked bridges among the given ones, up to the first that fails. -/
def restoreBridges (path : BridgePath) : List Nat → Route Bool
  | [] => return true
  | index :: rest => do
      if !((← get).plan.bridges path)[index]!.writeAttempted then
        return ← restoreBridges path rest
      if !(← restoreBridge path index) then return false
      restoreBridges path rest

/-- The bridges of a path, last to first. -/
def restorePath (path : BridgePath) : Route Bool := do
  restoreBridges path (indices ((← get).plan.bridges path)).reverse

def restoreEndpoint : Route Bool := do
  let plan := (← get).plan
  if !plan.endpointWriteAttempted then return true
  let status ← writeCommand plan.target plan.target.originalCommand
  if status.isError then return false
  let (status, command) ← readCommand plan.target
  if status.isError || command != plan.target.originalCommand then return false
  updatePlan fun plan =>
    { plan with endpointWriteApplied := false, endpointWriteAttempted := false }
  return true

def routeRestore : Route Unit := do
  if !(← restoreEndpoint) then return ()
  if !(← restorePath .targetExclusive) then return ()
  if !(← restorePath .shared) then return ()
  if !(← restorePath .activeExclusive) then return ()
  updatePlan fun plan => { plan with routeDirty := false }

/-! ### Releasing -/

/-- `LegacyBootBootTargetRelease` and `LegacyDispatchRelease`, for their statuses. -/
def releaseStatus : RouteQuery EfiStatus := do return (← Query.call).status

def nativeCsmVgaRuntimePlanRelease : Route EfiStatus := do
  let plan := (← get).plan
  if plan.routeDirty || plan.endpointWriteApplied then return .accessDenied
  let status ← releaseStatus
  let dispatchStatus ← releaseStatus
  if status.isError then return status
  updatePlan fun _ => default
  return dispatchStatus

end CsmVgaSelector
