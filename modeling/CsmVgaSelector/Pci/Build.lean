import CsmVgaSelector.Pci.Inventory

/-!
# Building the PCI inventory

Every handle with PCI I/O is asked for its location, its configuration space, its attributes and its device
path; a display with a device path is asked for its root bridge too. A call that fails may leave anything in
the variables it was given, and only its status tells. The messages logged on the way decide nothing, and are
left out.
-/

namespace CsmVgaSelector

def devicePathValidationLimit : Nat := 4096
def pciProbeConfigBytes : Nat := 64

/-- `sizeof (PCI_DEVICE_RECORD)`. -/
def pciDeviceRecordBytes : Nat := 240

/-- `PCI_DEVICE_RECORD` with the fields that the bridge paths leave aside. -/
structure PciRecord extends PciDeviceRecord where
  devicePathStatus : EfiStatus
  supportedAttributes : UInt64
  currentAttributes : UInt64
  supportedAttributesStatus : EfiStatus
  currentAttributesStatus : EfiStatus
  rootBridgePrefixSize : Nat
  rootSupportedAttributes : UInt64
  rootCurrentAttributes : UInt64
  rootAttributesStatus : EfiStatus
  deriving DecidableEq

/-- What `GetLocation` answers. -/
structure LocationAnswer where
  status : EfiStatus
  segment : Nat
  bus : Nat
  device : Nat
  function : Nat

/-- What `Pci.Read` of the first bytes of the configuration space answers. -/
structure ConfigAnswer where
  status : EfiStatus
  bytes : Vector UInt8 64

structure AttributesAnswer where
  status : EfiStatus
  attributes : UInt64

/-- What `HandleProtocol` answers for the device path, and what the device path library makes of it. -/
structure DevicePathAnswer where
  status : EfiStatus
  /-- Zero while it is `NULL`. -/
  address : Nat
  /-- The path, if `IsDevicePathValid` says that it is one. -/
  valid : Option DevicePath

structure RootAttributesAnswer where
  status : EfiStatus
  supported : UInt64
  current : UInt64

/-- A root bridge's protocol. -/
structure RootBridgeIo where
  parentHandle : Nat
  segmentNumber : Nat
  /-- What `GetAttributes` answers, if the protocol has it. -/
  getAttributes : Option RootAttributesAnswer

/-- What `LocateDevicePath` and then `HandleProtocol` answer for the root bridge. -/
structure RootBridgeAnswer where
  status : EfiStatus
  handle : Nat
  /-- Where the rest of the device path begins. -/
  remaining : Nat
  ioStatus : EfiStatus
  io : Option RootBridgeIo

/-- What the firmware answers about one handle. An entry point that is not there is `none`. -/
structure HandleAnswer where
  handle : Nat
  status : EfiStatus
  /-- Zero while it is `NULL`. -/
  pciIo : Nat
  getLocation : Option LocationAnswer
  read : Option ConfigAnswer
  /-- The supported attributes, and the current ones. -/
  attributes : Option (AttributesAnswer × AttributesAnswer)
  devicePath : DevicePathAnswer
  rootBridge : RootBridgeAnswer

/-- The record of a handle before its first call. -/
def HandleAnswer.record (answer : HandleAnswer) : PciRecord where
  handle := answer.handle
  pciIo := answer.pciIo
  pciRead := answer.read.isSome
  devicePath := none
  segment := 0
  bus := 0
  device := 0
  function := 0
  locationStatus := .notReady
  configStatus := .notReady
  config := List.replicate pciProbeConfigBytes 0
  rootBridgeHandle := 0
  rootBridgeIo := none
  rootBridgeStatus := .notReady
  devicePathStatus := .notReady
  supportedAttributes := 0
  currentAttributes := 0
  supportedAttributesStatus := .notReady
  currentAttributesStatus := .notReady
  rootBridgePrefixSize := 0
  rootSupportedAttributes := 0
  rootCurrentAttributes := 0
  rootAttributesStatus := .notReady

namespace PciRecord

variable (record : PciRecord)

def readLocation (getLocation : Option LocationAnswer) : PciRecord :=
  match getLocation with
  | none => { record with locationStatus := .unsupported }
  | some answer =>
      { record with
        locationStatus := answer.status
        segment := answer.segment
        bus := answer.bus
        device := answer.device
        function := answer.function }

def readConfig (read : Option ConfigAnswer) : PciRecord :=
  match read with
  | none => { record with configStatus := .unsupported }
  | some answer => { record with configStatus := answer.status, config := answer.bytes.toList }

def readAttributes (attributes : Option (AttributesAnswer × AttributesAnswer)) : PciRecord :=
  match attributes with
  | none =>
      { record with
        supportedAttributesStatus := .unsupported
        currentAttributesStatus := .unsupported }
  | some (supported, current) =>
      { record with
        supportedAttributesStatus := supported.status
        supportedAttributes := supported.attributes
        currentAttributesStatus := current.status
        currentAttributes := current.attributes }

def readDevicePath (answer : DevicePathAnswer) : PciRecord :=
  if answer.status.isError then { record with devicePathStatus := answer.status }
  else
    match answer.valid with
    | none => { record with devicePathStatus := .compromisedData }
    | some path =>
        if answer.address = 0 ∨ path.bytes.length < endDevicePathLength ∨
            path.bytes.length > devicePathValidationLimit then
          { record with devicePathStatus := .compromisedData }
        else { record with devicePathStatus := answer.status, devicePath := some path }

/-- The loop over the nodes, from an offset where one begins. -/
def boundaryFrom (bytes : List UInt8) (targetOffset offset : Nat) : Bool :=
  if _hroom : offset + endDevicePathLength ≤ bytes.length then
    if offset = targetOffset then true
    else
      let nodeSize := (readLe16 bytes (offset + 2)).toNat
      if _hsize : nodeSize < endDevicePathLength ∨ nodeSize > bytes.length - offset then false
      else boundaryFrom bytes targetOffset (offset + nodeSize)
  else false
  termination_by bytes.length - offset
  decreasing_by
    unfold endDevicePathLength at _hroom _hsize
    omega

def devicePathOffsetIsNodeBoundary (targetOffset : Nat) : Bool :=
  match record.devicePath with
  | none => false
  | some path =>
      if path.bytes.length < endDevicePathLength ∨
          targetOffset > path.bytes.length - endDevicePathLength then
        false
      else boundaryFrom path.bytes targetOffset 0

/-- The next step towards the root bridge, unless one before it failed. -/
def unlessFailed (step : PciRecord → PciRecord) : PciRecord :=
  if record.rootBridgeStatus.isError then record else step record

def locateRootBridge (answer : RootBridgeAnswer) : PciRecord :=
  { record with
    rootBridgeHandle := answer.handle
    rootBridgeStatus :=
      if !answer.status.isError && answer.handle == 0 then .compromisedData else answer.status }

/-- The part of the path that names the root bridge, from where the rest of it begins. -/
def measurePrefix (address remaining : Nat) : PciRecord :=
  if address > maxUintn - record.devicePathSize ∨ remaining < address ∨
      remaining > address + record.devicePathSize - endDevicePathLength then
    { record with rootBridgeStatus := .compromisedData }
  else
    { record with
      rootBridgePrefixSize := remaining - address
      rootBridgeStatus :=
        if record.devicePathOffsetIsNodeBoundary (remaining - address) then record.rootBridgeStatus
        else .compromisedData }

def openRootBridge (answer : RootBridgeAnswer) : PciRecord :=
  { record with
    rootBridgeIo := answer.io.map RootBridgeIo.parentHandle
    rootBridgeStatus :=
      if !answer.ioStatus.isError && (answer.io.map RootBridgeIo.parentHandle).getD 0 == 0 then
        .compromisedData
      else answer.ioStatus }

def readRootAttributes (answer : RootBridgeAnswer) : PciRecord :=
  match answer.io with
  | none => record
  | some io =>
      if io.segmentNumber ≠ record.segment then { record with rootBridgeStatus := .noMapping }
      else
        match io.getAttributes with
        | none => { record with rootAttributesStatus := .unsupported }
        | some attributes =>
            { record with
              rootAttributesStatus := attributes.status
              rootSupportedAttributes := attributes.supported
              rootCurrentAttributes := attributes.current }

/-- The root bridge's handle, its part of the device path, and its protocol. -/
def findRootBridge (address : Nat) (answer : RootBridgeAnswer) : PciRecord :=
  ((record.locateRootBridge answer).unlessFailed (·.measurePrefix address answer.remaining)).unlessFailed
    (·.openRootBridge answer)

def readRootBridge (address : Nat) (answer : RootBridgeAnswer) : PciRecord :=
  if recordIsDisplay record.toPciDeviceRecord && record.devicePath.isSome then
    (record.findRootBridge address answer).unlessFailed (·.readRootAttributes answer)
  else record

end PciRecord

/-- The record with everything but its root bridge. -/
def HandleAnswer.deviceRecord (answer : HandleAnswer) : PciRecord :=
  (((answer.record.readLocation answer.getLocation).readConfig answer.read).readAttributes
    answer.attributes).readDevicePath answer.devicePath

/-- One turn of the loop. -/
def buildRecord (answer : HandleAnswer) : PciRecord :=
  answer.deviceRecord.readRootBridge answer.devicePath.address answer.rootBridge

/-- A handle whose PCI I/O cannot be had gets no record. -/
def buildRecords (handles : List HandleAnswer) : List PciRecord :=
  (handles.filter fun answer => !answer.status.isError && answer.pciIo != 0).map buildRecord

/-- The status of the whole, after the buffer of handles was freed. -/
def afterFree (freeStatus : EfiStatus) (records : List PciRecord) : Except EfiStatus (List PciRecord) :=
  if freeStatus.isError then .error freeStatus else .ok records

/-- The inventory, from what `LocateHandleBuffer` answers, whether its allocation was granted, and what freeing
the buffer answers, if there is one to free. -/
def pciInventoryBuild (located : EfiStatus) (handles : List HandleAnswer) (granted : Bool)
    (freed : Option EfiStatus) : Except EfiStatus (List PciRecord) :=
  if located.isError then .error located
  else if handles.length = 0 then .ok []
  else if handles.length > maxUintn / pciDeviceRecordBytes || !granted then .error .outOfResources
  else afterFree (freed.getD .success) (buildRecords handles)

def findDevice (inventory : List PciRecord) (segment bus device function : Nat) : Option PciRecord :=
  inventory.find? fun record =>
    recordLocationIsValid record.toPciDeviceRecord && record.segment == segment && record.bus == bus &&
      record.device == device && record.function == function

end CsmVgaSelector
