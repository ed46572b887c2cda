import CsmVgaSelector.Pci.BridgePath
import Mathlib.Order.Nat

/-!
# What a validated bridge path is

The bridges of a path stand root to leaf, and the bus registers of each agree with its neighbours. The
check compares neighbours only, so a bridge forwards the bus of the bridge below it, and the device's
own bus exactly when no bridge further up numbers its buses past it (`bridgePath_forwards_iff`).
-/

namespace CsmVgaSelector

variable {inventory : PciInventory} {selected : PciDeviceRecord}

/-! ### The sort -/

theorem insertByDevicePathSize_perm {value : Nat} {sorted : List Nat} :
    (insertByDevicePathSize inventory value sorted).Perm (value :: sorted) := by
  induction sorted with
  | nil => exact .refl _
  | cons index rest ih =>
      unfold insertByDevicePathSize
      split
      · exact (ih.cons index).trans (.swap ..)
      · exact .refl _

/-- No longer path stands further from the end. -/
theorem insertByDevicePathSize_sorted {value : Nat} {sorted : List Nat}
    (h : sorted.Pairwise fun index index' =>
      inventory[index']!.devicePathSize ≤ inventory[index]!.devicePathSize) :
    (insertByDevicePathSize inventory value sorted).Pairwise fun index index' =>
      inventory[index']!.devicePathSize ≤ inventory[index]!.devicePathSize := by
  induction sorted with
  | nil => exact List.pairwise_singleton _ _
  | cons index rest ih =>
      unfold insertByDevicePathSize
      obtain ⟨hfirst, hrest⟩ := List.pairwise_cons.mp h
      split
      case isTrue hlonger =>
        refine List.pairwise_cons.mpr ⟨fun index' hindex' => ?_, ih hrest⟩
        rcases List.mem_cons.mp (insertByDevicePathSize_perm.subset hindex') with rfl | hmem
        · exact hlonger.le
        · exact hfirst index' hmem
      case isFalse hshorter =>
        refine List.pairwise_cons.mpr ⟨fun index' hindex' => ?_, h⟩
        rcases List.mem_cons.mp hindex' with rfl | hmem
        · exact not_lt.mp hshorter
        · exact (hfirst index' hmem).trans (not_lt.mp hshorter)

theorem foldl_insertByDevicePathSize {indices sorted : List Nat}
    (h : sorted.Pairwise fun index index' =>
      inventory[index']!.devicePathSize ≤ inventory[index]!.devicePathSize) :
    ((indices.foldl (fun sorted value => insertByDevicePathSize inventory value sorted)
        sorted).Pairwise fun index index' =>
      inventory[index']!.devicePathSize ≤ inventory[index]!.devicePathSize) ∧
    (indices.foldl (fun sorted value => insertByDevicePathSize inventory value sorted)
      sorted).Perm (indices ++ sorted) := by
  induction indices generalizing sorted with
  | nil => exact ⟨h, .refl _⟩
  | cons value rest ih =>
      obtain ⟨hsorted, hperm⟩ := ih (@insertByDevicePathSize_sorted inventory value sorted h)
      refine ⟨hsorted, hperm.trans ?_⟩
      exact (insertByDevicePathSize_perm.append_left rest).trans List.perm_middle

theorem sortPathByDevicePathSize_perm {indices : List Nat} :
    (sortPathByDevicePathSize inventory indices).Perm indices := by
  have hperm := (@foldl_insertByDevicePathSize inventory indices [] .nil).2
  rw [List.append_nil] at hperm
  exact (List.reverse_perm _).trans hperm

theorem sortPathByDevicePathSize_sorted {indices : List Nat} :
    (sortPathByDevicePathSize inventory indices).Pairwise fun index index' =>
      inventory[index]!.devicePathSize ≤ inventory[index']!.devicePathSize :=
  List.pairwise_reverse.mpr (foldl_insertByDevicePathSize .nil).1

/-! ### Device paths -/

/-- No two handles have one device path. -/
def DevicePathsDistinct (inventory : PciInventory) : Prop :=
  inventory.Pairwise fun record record' =>
    ∀ path ∈ record.devicePath, ∀ path' ∈ record'.devicePath, path ≠ path'

/-- A device path is its nodes and the end node. -/
theorem DevicePath.eq_of_take {path path' : DevicePath}
    (hlength : path.bytes.length = path'.bytes.length)
    (htake : path.bytes.take (path.bytes.length - endDevicePathLength) =
      path'.bytes.take (path.bytes.length - endDevicePathLength)) : path = path' := by
  obtain ⟨bytes, nodes, hnodes⟩ := path
  obtain ⟨bytes', nodes', hnodes'⟩ := path'
  subst hnodes hnodes'
  have hnodesLength : nodes.length = nodes'.length := by simpa using hlength
  have hsame : nodes = nodes' := by
    simpa [endDevicePathLength, endDevicePath, hnodesLength] using htake
  subst hsame
  rfl

theorem isStrictDevicePathPrefix_iff {candidate : PciDeviceRecord} :
    isStrictDevicePathPrefix candidate selected = true ↔
      ∃ path ∈ candidate.devicePath, ∃ path' ∈ selected.devicePath,
        endDevicePathLength < path.bytes.length ∧ path.bytes.length < path'.bytes.length ∧
        path.bytes.take (path.bytes.length - endDevicePathLength) =
          path'.bytes.take (path.bytes.length - endDevicePathLength) := by
  unfold isStrictDevicePathPrefix PciDeviceRecord.devicePathSize
  cases candidate.devicePath with
  | none => simp
  | some path =>
      cases selected.devicePath with
      | none => simp
      | some path' => simp [and_assoc]

/-- What the code takes as an ancestor is one: of two ancestors of a device, the one with the shorter
path is an ancestor of the other. -/
theorem isStrictDevicePathPrefix_of_lt {upper lower : PciDeviceRecord}
    (hupper : isStrictDevicePathPrefix upper selected = true)
    (hlower : isStrictDevicePathPrefix lower selected = true)
    (hlt : upper.devicePathSize < lower.devicePathSize) :
    isStrictDevicePathPrefix upper lower = true := by
  rw [isStrictDevicePathPrefix_iff] at *
  obtain ⟨upperPath, hupperPath, path, hpath, hlong, -, hupperTake⟩ := hupper
  obtain ⟨lowerPath, hlowerPath, path', hpath', -, -, hlowerTake⟩ := hlower
  obtain rfl := Option.mem_unique hpath hpath'
  have hlt : upperPath.bytes.length < lowerPath.bytes.length := by
    rw [Option.mem_def] at hupperPath hlowerPath
    simpa [PciDeviceRecord.devicePathSize, hupperPath, hlowerPath] using hlt
  refine ⟨upperPath, hupperPath, lowerPath, hlowerPath, hlong, hlt, ?_⟩
  have hle : upperPath.bytes.length - endDevicePathLength ≤
      lowerPath.bytes.length - endDevicePathLength := by omega
  rw [hupperTake, ← Nat.min_eq_left hle, ← List.take_take, ← List.take_take, hlowerTake]

/-- Two ancestors of a device whose paths are equally long have one path. -/
theorem devicePath_eq_of_size_eq {upper lower : PciDeviceRecord}
    (hupper : isStrictDevicePathPrefix upper selected = true)
    (hlower : isStrictDevicePathPrefix lower selected = true)
    (hsize : upper.devicePathSize = lower.devicePathSize) :
    ∃ path ∈ upper.devicePath, path ∈ lower.devicePath := by
  rw [isStrictDevicePathPrefix_iff] at hupper hlower
  obtain ⟨upperPath, hupperPath, path, hpath, -, -, hupperTake⟩ := hupper
  obtain ⟨lowerPath, hlowerPath, path', hpath', -, -, hlowerTake⟩ := hlower
  obtain rfl := Option.mem_unique hpath hpath'
  have hlength : upperPath.bytes.length = lowerPath.bytes.length := by
    rw [Option.mem_def] at hupperPath hlowerPath
    simpa [PciDeviceRecord.devicePathSize, hupperPath, hlowerPath] using hsize
  have hsame : upperPath = lowerPath :=
    DevicePath.eq_of_take hlength (by rw [hupperTake, hlength, hlowerTake])
  exact ⟨upperPath, hupperPath, hsame ▸ hlowerPath⟩

/-! ### The path -/

theorem crossCheckBridgePath_spec {path : List Nat}
    (h : crossCheckBridgePath inventory selected path = .success) (place : Nat)
    (hplace : place < path.length) :
    bridgeAgrees inventory[path[place]]!
      (if hnext : place + 1 < path.length then inventory[path[place + 1]]!.bus
        else selected.bus) = true := by
  induction path generalizing place with
  | nil => cases hplace
  | cons index rest ih =>
      unfold crossCheckBridgePath at h
      split at h
      case isFalse => cases h
      case isTrue hagrees =>
        cases place with
        | zero =>
            cases rest with
            | nil => simpa [childBus] using hagrees
            | cons next rest => simpa [childBus] using hagrees
        | succ place => simpa using ih h place (by simpa using hplace)

/-- How a path that was built stands in the inventory. -/
structure BuiltPath (inventory : PciInventory) (selected : PciDeviceRecord) (path : List Nat) :
    Prop where
  perm : path.Perm ((List.range inventory.length).filter fun index =>
    isUpstreamBridge selected inventory[index]!)
  sorted : path.Pairwise fun index index' =>
    inventory[index]!.devicePathSize ≤ inventory[index']!.devicePathSize
  agrees : ∀ place (hplace : place < path.length), bridgeAgrees inventory[path[place]]!
    (if hnext : place + 1 < path.length then inventory[path[place + 1]]!.bus
      else selected.bus) = true

theorem builtPath_of_ok {granted : Bool} {capacity : Nat} {bridges : List PciDeviceRecord}
    (h : pciBuildValidatedDevicePathBridgePath granted inventory selected capacity = .ok bridges) :
    ∃ path, BuiltPath inventory selected path ∧ bridges = path.map (inventory[·]!) := by
  unfold pciBuildValidatedDevicePathBridgePath at h
  split at h
  case isTrue => cases h
  split at h
  case isTrue => cases h
  split at h
  case isTrue => cases h
  split at h
  case h_1 => cases h
  case h_2 path hpath =>
    split at h
    case isTrue => cases h
    case isFalse hcheck =>
      split at h
      case isTrue => cases h
      cases h
      unfold buildDevicePathBridgePath at hpath
      split at hpath
      case h_1 => cases hpath
      dsimp only at hpath
      split at hpath
      case h_1 => cases hpath
      split at hpath
      case isTrue => cases hpath
      cases hpath
      exact ⟨_, ⟨sortPathByDevicePathSize_perm, sortPathByDevicePathSize_sorted,
        crossCheckBridgePath_spec (not_not.mp hcheck)⟩, rfl⟩

/-- The bridges are all the upstream ones. -/
theorem BuiltPath.mem_iff {path : List Nat} (h : BuiltPath inventory selected path)
    {bridge : PciDeviceRecord} :
    bridge ∈ path.map (inventory[·]!) ↔
      bridge ∈ inventory ∧ isUpstreamBridge selected bridge = true := by
  rw [List.mem_map]
  constructor
  · rintro ⟨index, hindex, rfl⟩
    obtain ⟨hlt, hupstream⟩ := List.mem_filter.mp (h.perm.subset hindex)
    rw [List.mem_range] at hlt
    exact ⟨by simp [hlt], hupstream⟩
  · rintro ⟨hmem, hupstream⟩
    obtain ⟨index, hlt, rfl⟩ := List.getElem_of_mem hmem
    refine ⟨index, h.perm.symm.subset ?_, by simp [hlt]⟩
    rw [List.mem_filter, List.mem_range]
    exact ⟨hlt, by simpa [hlt] using hupstream⟩

/-- What keeps the records of an inventory apart keeps the bridges of a path apart. -/
theorem BuiltPath.pairwise {path : List Nat} (h : BuiltPath inventory selected path)
    {Apart : PciDeviceRecord → PciDeviceRecord → Prop}
    (hsymm : ∀ record record', Apart record record' → Apart record' record)
    (hapart : inventory.Pairwise Apart) : (path.map (inventory[·]!)).Pairwise Apart := by
  have hnodup : path.Nodup := h.perm.nodup_iff.mpr (List.nodup_range.filter _)
  have hlt : ∀ index ∈ path, index < inventory.length := fun index hindex =>
    List.mem_range.mp (List.mem_filter.mp (h.perm.subset hindex)).1
  have hpairs := List.pairwise_iff_getElem.mp hapart
  rw [List.pairwise_map]
  refine hnodup.imp_of_mem fun {index index'} hindex hindex' hne => ?_
  rw [getElem!_pos inventory index (hlt index hindex),
    getElem!_pos inventory index' (hlt index' hindex')]
  rcases Nat.lt_or_gt_of_ne hne with hbefore | hafter
  · exact hpairs index index' _ _ hbefore
  · exact hsymm _ _ (hpairs index' index _ _ hafter)

/-- The bridges stand root to leaf: each is an ancestor of the next. -/
theorem BuiltPath.rootToLeaf {path : List Nat} (h : BuiltPath inventory selected path)
    (hdistinct : DevicePathsDistinct inventory) :
    (path.map (inventory[·]!)).Pairwise fun upper lower =>
      isStrictDevicePathPrefix upper lower = true := by
  have hbefore : ∀ bridge ∈ path.map (inventory[·]!),
      isStrictDevicePathPrefix bridge selected = true := by
    intro bridge hbridge
    have hupstream := (h.mem_iff.mp hbridge).2
    rw [isUpstreamBridge, Bool.and_eq_true] at hupstream
    exact hupstream.2
  have hapart := h.pairwise
    (fun _ _ hne path hpath path' hpath' => (hne path' hpath' path hpath).symm) hdistinct
  have hsorted : (path.map (inventory[·]!)).Pairwise fun upper lower =>
      upper.devicePathSize ≤ lower.devicePathSize := List.pairwise_map.mpr h.sorted
  refine (hapart.and hsorted).imp_of_mem fun {upper lower} hupper hlower ⟨hne, hle⟩ => ?_
  refine isStrictDevicePathPrefix_of_lt (hbefore upper hupper) (hbefore lower hlower) ?_
  refine Nat.lt_of_le_of_ne hle fun hsame => ?_
  obtain ⟨devicePath, hfirst, hsecond⟩ :=
    devicePath_eq_of_size_eq (hbefore upper hupper) (hbefore lower hlower) hsame
  exact hne devicePath hfirst devicePath hsecond rfl

/-! ### The chain -/

/-- The bridges listed root to leaf forward the device's bus, each to the bus below it. -/
structure ForwardingChain (selected : PciDeviceRecord) (bridges : List PciDeviceRecord) : Prop where
  rootToLeaf : bridges.Pairwise fun upper lower => isStrictDevicePathPrefix upper lower = true
  secondary : ∀ place (hplace : place < bridges.length), bridges[place].secondaryBus =
    if hnext : place + 1 < bridges.length then bridges[place + 1].bus else selected.bus
  primary : ∀ bridge ∈ bridges, bridge.primaryBus = bridge.bus
  forwards : ∀ bridge ∈ bridges,
    bridge.secondaryBus ≤ selected.bus ∧ selected.bus ≤ bridge.subordinateBus

/-- No bridge above the device, other than one whose secondary bus is the device's own, has a window of
buses that leaves out the device's. -/
def WindowsReach (inventory : PciInventory) (selected : PciDeviceRecord) : Prop :=
  ∀ bridge ∈ inventory, isUpstreamBridge selected bridge = true →
    bridge.secondaryBus ≠ selected.bus →
      bridge.secondaryBus < selected.bus ∧ selected.bus ≤ bridge.subordinateBus

theorem bridgeAgrees_iff {bridge : PciDeviceRecord} {childBus : Nat} :
    bridgeAgrees bridge childBus = true ↔ bridge.primaryBus = bridge.bus ∧
      bridge.secondaryBus = childBus ∧ bridge.secondaryBus ≤ bridge.subordinateBus := by
  rw [bridgeAgrees, Bool.and_eq_true, Bool.and_eq_true, beq_iff_eq, beq_iff_eq,
    Bool.not_eq_true', decide_eq_false_iff_not, gt_iff_lt, not_lt, and_assoc]
  refine and_congr_right fun _ => and_congr_right fun hsecondary => ?_
  rw [hsecondary]

/-- **When a validated path is a forwarding chain.** All of it but the windows is checked, and of the
windows those are that begin at the device's own bus. -/
theorem forwardingChain_iff {granted : Bool} {capacity : Nat} {bridges : List PciDeviceRecord}
    (hdistinct : DevicePathsDistinct inventory)
    (h : pciBuildValidatedDevicePathBridgePath granted inventory selected capacity = .ok bridges) :
    ForwardingChain selected bridges ↔ WindowsReach inventory selected := by
  obtain ⟨path, hbuilt, rfl⟩ := builtPath_of_ok h
  have hagrees : ∀ place (hplace : place < path.length),
      inventory[path[place]]!.primaryBus = inventory[path[place]]!.bus ∧
      inventory[path[place]]!.secondaryBus =
        (if hnext : place + 1 < path.length then inventory[path[place + 1]]!.bus
          else selected.bus) ∧
      inventory[path[place]]!.secondaryBus ≤ inventory[path[place]]!.subordinateBus := by
    intro place hplace
    exact bridgeAgrees_iff.mp (hbuilt.agrees place hplace)
  constructor
  · intro hchain bridge hmem hupstream hne
    obtain ⟨hlower, hupper⟩ := hchain.forwards bridge (hbuilt.mem_iff.mpr ⟨hmem, hupstream⟩)
    exact ⟨Nat.lt_of_le_of_ne hlower hne, hupper⟩
  · intro hreach
    refine ⟨hbuilt.rootToLeaf hdistinct, fun place hplace => ?_, fun bridge hbridge => ?_,
      fun bridge hbridge => ?_⟩
    · simpa using (hagrees place (by simpa using hplace)).2.1
    · obtain ⟨place, hplace, rfl⟩ := List.getElem_of_mem hbridge
      simpa using (hagrees place (by simpa using hplace)).1
    · obtain ⟨hmem, hupstream⟩ := hbuilt.mem_iff.mp hbridge
      by_cases hsame : bridge.secondaryBus = selected.bus
      · obtain ⟨place, hplace, rfl⟩ := List.getElem_of_mem hbridge
        have hle := (hagrees place (by simpa using hplace)).2.2
        refine ⟨hsame.le, hsame ▸ ?_⟩
        simpa using hle
      · obtain ⟨hlower, hupper⟩ := hreach bridge hmem hupstream hsame
        exact ⟨hlower.le, hupper⟩

/-- A bridge at the end of these PCI nodes, with its three bus registers and its control register. -/
def sampleP2pBridge (devices : List UInt8) (primary secondary subordinate control : UInt8) :
    PciDeviceRecord :=
  { (default : PciDeviceRecord) with
    handle := 1
    pciIo := 1
    pciRead := true
    devicePath := some
      ⟨devices.flatMap (fun device => [1, 1, 6, 0, 0, device]) ++ endDevicePath,
        List.suffix_append ..⟩
    bus := primary.toNat
    device := (devices.getLast?.getD 0).toNat
    locationStatus := .success
    configStatus := .success
    config := (((((((List.replicate 64 0).set pciHeaderTypeOffset 1).set pciBaseClassOffset 6).set
      pciSubclassOffset 4).set pciPrimaryBusOffset primary).set pciSecondaryBusOffset secondary).set
      pciSubordinateBusOffset subordinate).set pciBridgeControlOffset control
    rootBridgeHandle := 1
    rootBridgeIo := some 1
    rootBridgeStatus := .success }

/-- A display at the end of these PCI nodes, on this bus. -/
def displayOnBus (devices : List UInt8) (bus : UInt8) : PciDeviceRecord :=
  { sampleP2pBridge devices bus 0 0 0 with
    config := (List.replicate 64 0).set pciBaseClassOffset pciBaseClassDisplay }

/-- The first bridge's buses end before the second's. -/
theorem forwardingChain_short :
    DevicePathsDistinct
      [sampleP2pBridge [1] 0 1 1 0, sampleP2pBridge [1, 0] 1 2 2 0, displayOnBus [1, 0, 0] 2] ∧
    pciBuildValidatedDevicePathBridgePath true
        [sampleP2pBridge [1] 0 1 1 0, sampleP2pBridge [1, 0] 1 2 2 0, displayOnBus [1, 0, 0] 2]
        (displayOnBus [1, 0, 0] 2) 16 =
      .ok [sampleP2pBridge [1] 0 1 1 0, sampleP2pBridge [1, 0] 1 2 2 0] ∧
    ¬ ForwardingChain (displayOnBus [1, 0, 0] 2)
      [sampleP2pBridge [1] 0 1 1 0, sampleP2pBridge [1, 0] 1 2 2 0] := by
  refine ⟨?_, by decide +kernel, fun hchain => ?_⟩
  · unfold DevicePathsDistinct
    decide +kernel
  · exact absurd (hchain.forwards _ (List.mem_cons_self ..)).2 (by decide)

/-- Bridges whose buses reach the display. -/
theorem forwardingChain_iff_reaching :
    ForwardingChain (displayOnBus [1, 0, 0] 2)
      [sampleP2pBridge [1] 0 1 2 0, sampleP2pBridge [1, 0] 1 2 2 0] := by
  refine (@forwardingChain_iff
    [sampleP2pBridge [1, 0] 1 2 2 0, sampleP2pBridge [1] 0 1 2 0, displayOnBus [1, 0, 0] 2]
    (displayOnBus [1, 0, 0] 2) true 16 _ ?_ (by decide +kernel)).mpr ?_
  · unfold DevicePathsDistinct
    decide +kernel
  · unfold WindowsReach
    decide +kernel

end CsmVgaSelector
