import CsmVgaSelector.Lib.Holdings
import CsmVgaSelector.Route.PlanBuild

/-!
# The dispatch of the target's ROM

The compatibility module is told of the target's ROM by a table below 640 KiB, in a page of its own. The page is
reserved behind the preflight, before anything is changed, and given back with the plan when the boot returns.
-/

namespace CsmVgaSelector.Dispatch

open Prog

def dispatchMaxAddress : Nat := 0x9F000
def dispatchLowest : Nat := 0x500
def dispatchEnd : Nat := 0xA0000
def vgaOpromSegment : UInt16 := 0xC000

/-- The shadow that the ROM is copied to. -/
def legacyVgaShadowBase : Nat := 0xC0000

/-! ### The page -/

/-- What `AllocatePages` or `FreePages` answers. -/
structure PageAnswer where
  status : EfiStatus
  address : Nat

/-- The static variables, and the pages that the firmware has handed out. -/
structure DispatchState where
  reserved : Nat
  owned : Bool
  pages : Holdings

def DispatchState.start : DispatchState := ⟨0, false, .empty⟩

abbrev DispatchProg := Prog PageAnswer DispatchState

def legacyDispatchRelease : DispatchProg EfiStatus := do
  let state ← get
  if !state.owned then return .success
  else
    let answer ← call
    if !answer.status.isError then
      set { reserved := 0, owned := false, pages := state.pages.giveBack state.reserved : DispatchState }
    return answer.status

/-- The page is asked for below `dispatchMaxAddress`. -/
def legacyDispatchReserve : DispatchProg EfiStatus := do
  let state ← get
  if state.owned then return .alreadyStarted
  else
    let answer ← call
    if answer.status.isError then return answer.status
    else
      set { reserved := answer.address, owned := true, pages := state.pages.take answer.address 1 : DispatchState }
      if answer.address < dispatchLowest ∨ answer.address ≥ dispatchEnd then
        let status ← legacyDispatchRelease
        return if status.isError then status else .unsupported
      else return .success

/-- `NativeCsmVgaRuntimePlanRelease`, with what the release of the boot target gives. -/
def nativeCsmVgaRuntimePlanRelease (dirty : Bool) (bootTargetStatus : EfiStatus) : DispatchProg EfiStatus := do
  if dirty then return .accessDenied
  else
    let dispatchStatus ← legacyDispatchRelease
    return if bootTargetStatus.isError then bootTargetStatus else dispatchStatus

/-! ### The table -/

/-- `EFI_DISPATCH_OPROM_TABLE`. -/
structure DispatchOpromTable where
  pnpInstallationCheckSegment : UInt16
  pnpInstallationCheckOffset : UInt16
  opromSegment : UInt16
  pciBus : UInt8
  pciDeviceFunction : UInt8
  numberBbsEntries : UInt8
  bbsTablePointer : UInt32
  runtimeSegment : UInt16
  deriving DecidableEq

def legacyDispatchPrepare (plan : NativePlan) : DispatchOpromTable where
  pnpInstallationCheckSegment := plan.displays.compatibility16.pnpSegment
  pnpInstallationCheckOffset := plan.displays.compatibility16.pnpOffset
  opromSegment := vgaOpromSegment
  pciBus := plan.displays.target.address.bus
  pciDeviceFunction := (plan.displays.target.address.device <<< 3) ||| plan.displays.target.address.function
  numberBbsEntries := .ofNat plan.disk.bootTarget.bbsCount
  bbsTablePointer := .ofNat plan.disk.bootTarget.firmwareBbsTable
  runtimeSegment := 0

/-- The registers of the call that point to the table. -/
structure DispatchRegisters where
  es : UInt16
  bx : UInt16
  deriving DecidableEq

def dispatchRegisters (dispatchAddress : Nat) : DispatchRegisters where
  es := .ofNat (dispatchAddress >>> 4)
  bx := .ofNat (dispatchAddress &&& 0x0F)

end CsmVgaSelector.Dispatch
