import CsmVgaSelector.Pci.Inventory

/-!
# The bridge path of a display

The bridges above a device are the PCI-to-PCI bridges whose device paths are strict prefixes of its own,
in the order of their sizes. There must be one for each PCI node of the device's path but the last, and
the bus registers of each must agree with its own bus and with the bus of the next. The messages logged
on the way decide nothing, and are left out.
-/

namespace CsmVgaSelector

def isStrictDevicePathPrefix (candidate selected : PciDeviceRecord) : Bool :=
  match candidate.devicePath, selected.devicePath with
  | some candidatePath, some selectedPath =>
      if candidate.devicePathSize ≤ endDevicePathLength ∨
          selected.devicePathSize ≤ candidate.devicePathSize then
        false
      else
        let prefixSize := candidate.devicePathSize - endDevicePathLength
        candidatePath.bytes.take prefixSize == selectedPath.bytes.take prefixSize
  | _, _ => false

/-- The inner loop: the indices before `Value`, last to first, with `Value` put after the last one whose
path is not longer. -/
def insertByDevicePathSize (inventory : PciInventory) (value : Nat) : List Nat → List Nat
  | [] => [value]
  | index :: rest =>
      if inventory[index]!.devicePathSize > inventory[value]!.devicePathSize then
        index :: insertByDevicePathSize inventory value rest
      else value :: index :: rest

def sortPathByDevicePathSize (inventory : PciInventory) (indices : List Nat) : List Nat :=
  (indices.foldl (fun sorted value => insertByDevicePathSize inventory value sorted) []).reverse

def hardwareDevicePath : UInt8 := 0x01
def hwPciDp : UInt8 := 0x01

/-- The PCI nodes of a device path, up to its end node. -/
def pciNodeCount : List UInt8 → Except EfiStatus Nat
  | type :: subType :: low :: high :: rest =>
      let nodeSize := low.toNat + 256 * high.toNat
      if nodeSize < endDevicePathLength ∨ nodeSize > rest.length + 4 then .error .compromisedData
      else
        let count := if type = hardwareDevicePath ∧ subType = hwPciDp then 1 else 0
        if type = 0x7F ∧ subType = 0xFF then .ok count
        else
          match pciNodeCount (rest.drop (nodeSize - 4)) with
          | .error status => .error status
          | .ok following => .ok (count + following)
  | _ => .ok 0
  termination_by bytes => bytes.length
  decreasing_by
    simp only [List.length_cons, List.length_drop]
    omega

/-- A bridge that stands above the selected device. -/
def isUpstreamBridge (selected candidate : PciDeviceRecord) : Bool :=
  recordLocationIsValid candidate && recordIsP2pBridge candidate &&
    candidate.segment == selected.segment && isStrictDevicePathPrefix candidate selected

def buildDevicePathBridgePath (inventory : PciInventory) (selected : PciDeviceRecord) :
    Except EfiStatus (List Nat) :=
  match selected.devicePath with
  | none => .error .notFound
  | some selectedPath =>
      let path := sortPathByDevicePathSize inventory
        ((List.range inventory.length).filter fun index => isUpstreamBridge selected inventory[index]!)
      match pciNodeCount selectedPath.bytes with
      | .error status => .error status
      | .ok count =>
          if count = 0 ∨ path.length + 1 ≠ count then .error .notFound
          else .ok path

/-- The bus registers of one bridge, against its own bus and the bus below it. -/
def bridgeAgrees (bridge : PciDeviceRecord) (childBus : Nat) : Bool :=
  bridge.primaryBus == bridge.bus && bridge.secondaryBus == childBus &&
    !decide (childBus > bridge.subordinateBus)

/-- The bus that comes below a bridge, by what follows it on the path. -/
def childBus (inventory : PciInventory) (selected : PciDeviceRecord) : List Nat → Nat
  | [] => selected.bus
  | next :: _ => inventory[next]!.bus

def crossCheckBridgePath (inventory : PciInventory) (selected : PciDeviceRecord) :
    List Nat → EfiStatus
  | [] => .success
  | index :: rest =>
      if bridgeAgrees inventory[index]! (childBus inventory selected rest) then
        crossCheckBridgePath inventory selected rest
      else .noMapping

/-- The bridges above a display, with what an allocation was granted and the room for the records. -/
def pciBuildValidatedDevicePathBridgePath (granted : Bool) (inventory : PciInventory)
    (selected : PciDeviceRecord) (bridgeCapacity : Nat) : Except EfiStatus (List PciDeviceRecord) :=
  if !recordLocationIsValid selected || !recordIsDisplay selected then .error .invalidParameter
  else if selected.rootBridgeStatus.isError || selected.rootBridgeHandle == 0 ||
      selected.rootBridgeIo.getD 0 == 0 then
    .error .noMapping
  else if inventory.length > maxUintn / 8 || !granted then .error .outOfResources
  else
    match buildDevicePathBridgePath inventory selected with
    | .error status => .error status
    | .ok path =>
        if crossCheckBridgePath inventory selected path ≠ .success then
          .error (crossCheckBridgePath inventory selected path)
        else if path.length > bridgeCapacity then .error .badBufferSize
        else .ok (path.map (inventory[·]!))

end CsmVgaSelector
