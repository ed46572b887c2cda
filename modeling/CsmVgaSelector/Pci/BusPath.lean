import CsmVgaSelector.Pci.BridgePath

/-!
# The bridge path by bus numbers

Where a display has no usable device path, the report looks for its bridges by their bus registers: for every
bus the one bridge that has it as its secondary bus, up to bus zero. What it finds this way is for the log only.
-/

namespace CsmVgaSelector

/-- A bridge to the bus that says of itself which bus it is on. -/
def isBridgeToBus (selected : PciDeviceRecord) (currentBus : Nat) (bridge : PciDeviceRecord) : Bool :=
  recordLocationIsValid bridge && recordIsP2pBridge bridge && bridge.segment == selected.segment &&
    bridge.secondaryBus == currentBus && bridge.primaryBus == bridge.bus

/-- The inner loop's candidates. -/
def bridgesToBus (inventory : PciInventory) (selected : PciDeviceRecord) (currentBus : Nat) : List Nat :=
  (List.range inventory.length).filter fun index => isBridgeToBus selected currentBus inventory[index]!

/-- The outer loop, for as many bridges as there are records that are not on the path yet. -/
def walkBuses (inventory : PciInventory) (selected : PciDeviceRecord) :
    Nat → Nat → List Nat → Except EfiStatus (List Nat)
  | 0, _, path => .ok path
  | remaining + 1, currentBus, path =>
      if currentBus = 0 then .ok path
      else
        match bridgesToBus inventory selected currentBus with
        | [] => .error .notFound
        | [candidate] =>
            if inventory[candidate]!.bus = currentBus then .error .compromisedData
            else if candidate ∈ path then .error .compromisedData
            else walkBuses inventory selected remaining inventory[candidate]!.bus (path ++ [candidate])
        | _ :: _ :: _ => .error .noMapping

def buildBusBridgePath (inventory : PciInventory) (selected : PciDeviceRecord) : Except EfiStatus (List Nat) :=
  match walkBuses inventory selected inventory.length selected.bus [] with
  | .error status => .error status
  | .ok path => if path = [] then .error .notFound else .ok path.reverse

end CsmVgaSelector
