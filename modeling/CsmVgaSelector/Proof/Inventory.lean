import CsmVgaSelector.Pci.Build
import Mathlib.Data.List.Basic
import Mathlib.Data.List.Forall2

/-!
# What a record of the inventory is

Whatever the firmware answers, a record whose root bridge was found is a display with a valid device path, the
root bridge's part of the path ends where one of its nodes ends, and the root bridge has a host of its own and
the display's segment. These are all the conditions there are.
-/

namespace CsmVgaSelector

variable {record : PciRecord} {answer : HandleAnswer} {bytes : List UInt8} {offset targetOffset : Nat}

/-! ### Nodes -/

/-- A device path node by itself: its length is the one it names, and has room for the header. -/
structure IsNode (node : List UInt8) : Prop where
  header : endDevicePathLength ≤ node.length
  length : (readLe16 node 2).toNat = node.length

/-- So many bytes are whole nodes, with room for an end node behind them. -/
def NodesUpTo (bytes : List UInt8) (size : Nat) : Prop :=
  ∃ (nodes : List (List UInt8)) (rest : List UInt8), bytes = nodes.flatten ++ rest ∧
    (∀ node ∈ nodes, IsNode node) ∧ nodes.flatten.length = size ∧ endDevicePathLength ≤ rest.length

theorem readLe16_take {size : Nat} (h : endDevicePathLength ≤ size) :
    readLe16 (bytes.take size) 2 = readLe16 bytes 2 := by
  unfold endDevicePathLength at h
  have hlow : 2 < size := by omega
  have hhigh : 3 < size := by omega
  simp [readLe16, hlow, hhigh]

/-- The first of some nodes begins the bytes. -/
theorem IsNode.readLe16_append {node rest : List UInt8} (h : IsNode node) :
    (readLe16 (node ++ rest) 2).toNat = node.length := by
  have hheader := h.header
  rw [← h.length]
  unfold endDevicePathLength at hheader
  have hlow : 2 < node.length := by omega
  have hhigh : 3 < node.length := by omega
  simp [readLe16, List.getElem?_append, hlow, hhigh]

/-- Bytes begin with a whole node, and whole nodes go on behind it. -/
theorem nodesUpTo_iff {size : Nat} (hsize : 0 < size) : NodesUpTo bytes size ↔
    endDevicePathLength ≤ (readLe16 bytes 2).toNat ∧ (readLe16 bytes 2).toNat ≤ bytes.length ∧
      (readLe16 bytes 2).toNat ≤ size ∧
      NodesUpTo (bytes.drop (readLe16 bytes 2).toNat) (size - (readLe16 bytes 2).toNat) := by
  constructor
  · rintro ⟨nodes, rest, hbytes, hnodes, hlength, hrest⟩
    cases nodes with
    | nil =>
        rw [List.flatten_nil, List.length_nil] at hlength
        omega
    | cons node nodes =>
        have hnode := hnodes node (List.mem_cons_self ..)
        rw [List.flatten_cons, List.append_assoc] at hbytes
        rw [List.flatten_cons, List.length_append] at hlength
        have hfirst : (readLe16 bytes 2).toNat = node.length := by
          rw [hbytes, hnode.readLe16_append]
        have hfits := congrArg List.length hbytes
        rw [List.length_append] at hfits
        rw [hfirst]
        refine ⟨hnode.header, by omega, by omega, nodes, rest, ?_, fun other hother => ?_, by omega, hrest⟩
        · rw [hbytes, List.drop_left]
        · exact hnodes other (List.mem_cons_of_mem _ hother)
  · rintro ⟨hheader, hfits, hle, nodes, rest, hbytes, hnodes, hlength, hrest⟩
    have hfirst : IsNode (bytes.take (readLe16 bytes 2).toNat) := by
      refine ⟨?_, ?_⟩
      · rwa [List.length_take_of_le hfits]
      · rw [readLe16_take hheader, List.length_take_of_le hfits]
    refine ⟨bytes.take (readLe16 bytes 2).toNat :: nodes, rest, ?_, fun node hnode => ?_, ?_, hrest⟩
    · rw [List.flatten_cons, List.append_assoc, ← hbytes, List.take_append_drop]
    · rcases List.mem_cons.mp hnode with rfl | hlater
      · exact hfirst
      · exact hnodes node hlater
    · rw [List.flatten_cons, List.length_append, List.length_take_of_le hfits]
      omega

theorem nodesUpTo_zero : NodesUpTo bytes 0 ↔ endDevicePathLength ≤ bytes.length := by
  constructor
  · rintro ⟨nodes, rest, rfl, -, -, hrest⟩
    rw [List.length_append]
    omega
  · exact fun h => ⟨[], bytes, by simp, by simp, by simp, h⟩

/-- The loop never turns back. -/
theorem boundaryFrom_past (hpast : targetOffset < offset) :
    PciRecord.boundaryFrom bytes targetOffset offset = false := by
  fun_induction PciRecord.boundaryFrom bytes targetOffset offset with
  | case1 => omega
  | case2 => rfl
  | case3 offset hroom hne nodeSize hsize ih => exact ih (by omega)
  | case4 => rfl

/-- The loop finds the offset when whole nodes lead from where it is to there. -/
theorem boundaryFrom_iff (hoffset : offset ≤ targetOffset) :
    PciRecord.boundaryFrom bytes targetOffset offset = true ↔
      NodesUpTo (bytes.drop offset) (targetOffset - offset) := by
  fun_induction PciRecord.boundaryFrom bytes targetOffset offset with
  | case1 hroom =>
      rw [Nat.sub_self, nodesUpTo_zero, List.length_drop]
      exact iff_of_true rfl (by omega)
  | case2 offset hroom hne nodeSize hsize =>
      rw [nodesUpTo_iff (by omega), readLe16_drop, List.length_drop]
      exact iff_of_false Bool.false_ne_true (by omega)
  | case3 offset hroom hne nodeSize hsize ih =>
      rw [nodesUpTo_iff (by omega), readLe16_drop, List.length_drop, List.drop_drop]
      by_cases hpast : targetOffset < offset + nodeSize
      · rw [boundaryFrom_past hpast]
        exact iff_of_false Bool.false_ne_true (by omega)
      · rw [ih (by omega), Nat.sub_add_eq]
        refine ⟨fun hrest => ⟨by omega, by omega, by omega, hrest⟩, fun ⟨_, _, _, hrest⟩ => hrest⟩
  | case4 offset hroom =>
      refine iff_of_false Bool.false_ne_true ?_
      rintro ⟨nodes, rest, hbytes, -, hlength, hrest⟩
      have hle := congrArg List.length hbytes
      rw [List.length_drop, List.length_append] at hle
      unfold endDevicePathLength at *
      omega

theorem devicePathOffsetIsNodeBoundary_iff {path : DevicePath} (hpath : record.devicePath = some path) :
    record.devicePathOffsetIsNodeBoundary targetOffset = true ↔ NodesUpTo path.bytes targetOffset := by
  have hended := path.ended.length_le
  rw [show endDevicePath.length = endDevicePathLength from rfl] at hended
  unfold PciRecord.devicePathOffsetIsNodeBoundary
  rw [hpath]
  dsimp only
  split
  case isTrue hout =>
    refine iff_of_false Bool.false_ne_true ?_
    rintro ⟨nodes, rest, hbytes, -, hlength, hrest⟩
    have hle := congrArg List.length hbytes
    rw [List.length_append] at hle
    omega
  case isFalse => simpa using @boundaryFrom_iff path.bytes _ _ (Nat.zero_le targetOffset)

/-! ### The root bridge of a record -/

/-- What the steps towards the root bridge leave alone. -/
def PciRecord.withoutRoot (record : PciRecord) : PciRecord :=
  { record with
    rootBridgeHandle := 0
    rootBridgeIo := none
    rootBridgeStatus := .notReady
    rootBridgePrefixSize := 0
    rootSupportedAttributes := 0
    rootCurrentAttributes := 0
    rootAttributesStatus := .notReady }

/-- A field that a reset does not touch is the same in records that are the same after it. -/
theorem PciRecord.kept {α : Type} {reset : PciRecord → PciRecord} {record' : PciRecord}
    (field : PciRecord → α) (h : reset record = reset record')
    (hfield : ∀ record : PciRecord, field (reset record) = field record := by intros; rfl) :
    field record = field record' := by
  rw [← hfield record, h, hfield]

namespace PciRecord

variable {step : PciRecord → PciRecord} {rootBridge : RootBridgeAnswer} {address remaining : Nat}

/-- No step towards the root bridge has failed. -/
def RootBridgeGood (record : PciRecord) : Prop := record.rootBridgeStatus.isError = false

theorem unlessFailed_good :
    (record.unlessFailed step).RootBridgeGood ↔ record.RootBridgeGood ∧ (step record).RootBridgeGood := by
  unfold unlessFailed RootBridgeGood
  split
  case isTrue hfailed => simp [hfailed]
  case isFalse hgood => simp [Bool.eq_false_iff.mpr hgood]

theorem unlessFailed_of_good (h : record.RootBridgeGood) : record.unlessFailed step = step record := by
  unfold RootBridgeGood at h
  rw [unlessFailed, h]
  rfl

theorem unlessFailed_withoutRoot (h : ∀ record, (step record).withoutRoot = record.withoutRoot) :
    (record.unlessFailed step).withoutRoot = record.withoutRoot := by
  unfold unlessFailed
  split
  · rfl
  · exact h record

theorem locateRootBridge_withoutRoot : (record.locateRootBridge rootBridge).withoutRoot = record.withoutRoot := rfl

theorem locateRootBridge_good : (record.locateRootBridge rootBridge).RootBridgeGood ↔
    rootBridge.status.isError = false ∧ rootBridge.handle ≠ 0 := by
  unfold locateRootBridge RootBridgeGood
  cases hstatus : rootBridge.status.isError
  case true => simp [hstatus]
  case false =>
    by_cases hhandle : rootBridge.handle = 0
    · simp [hhandle, EfiStatus.isError]
    · simp [hhandle, hstatus]

theorem measurePrefix_withoutRoot : (record.measurePrefix address remaining).withoutRoot = record.withoutRoot := by
  unfold measurePrefix
  split <;> rfl

/-- The rest of the path begins behind whole nodes of it. -/
structure PrefixOf (path : DevicePath) (address remaining : Nat) : Prop where
  representable : address + path.bytes.length ≤ maxUintn
  after : address ≤ remaining
  nodes : NodesUpTo path.bytes (remaining - address)

theorem measurePrefix_good {path : DevicePath} (hpath : record.devicePath = some path)
    (hlimit : path.bytes.length ≤ devicePathValidationLimit) (hgood : record.RootBridgeGood) :
    (record.measurePrefix address remaining).RootBridgeGood ↔ PrefixOf path address remaining := by
  have hsize : record.devicePathSize = path.bytes.length := by simp [PciDeviceRecord.devicePathSize, hpath]
  unfold measurePrefix RootBridgeGood
  rw [hsize]
  have hended := path.ended.length_le
  rw [show endDevicePath.length = endDevicePathLength from rfl] at hended
  have hmax : devicePathValidationLimit ≤ maxUintn := by decide
  split
  case isTrue hout =>
    refine iff_of_false (fun hcompromised => by cases hcompromised) ?_
    rintro ⟨hrepresentable, hafter, nodes, rest, hbytes, -, hlength, hrest⟩
    have hle := congrArg List.length hbytes
    rw [List.length_append] at hle
    omega
  case isFalse hin =>
    simp only [not_or, not_lt] at hin
    dsimp only
    split
    case isTrue hboundary =>
      have hnodes := (devicePathOffsetIsNodeBoundary_iff hpath).mp hboundary
      exact iff_of_true hgood ⟨by omega, by omega, hnodes⟩
    case isFalse hboundary =>
      refine iff_of_false (fun hcompromised => by cases hcompromised) fun hprefix => hboundary ?_
      exact (devicePathOffsetIsNodeBoundary_iff hpath).mpr hprefix.nodes

theorem openRootBridge_withoutRoot :
    (record.openRootBridge rootBridge).withoutRoot = record.withoutRoot := rfl

theorem openRootBridge_good : (record.openRootBridge rootBridge).RootBridgeGood ↔
    rootBridge.ioStatus.isError = false ∧ ∃ io ∈ rootBridge.io, io.parentHandle ≠ 0 := by
  unfold openRootBridge RootBridgeGood
  cases hstatus : rootBridge.ioStatus.isError
  case true => simp [hstatus]
  case false =>
    cases hio : rootBridge.io with
    | none => simp [EfiStatus.isError]
    | some io =>
        by_cases hparent : io.parentHandle = 0
        · simp [hparent, EfiStatus.isError]
        · simp [hparent, hstatus]

theorem readRootAttributes_withoutRoot :
    (record.readRootAttributes rootBridge).withoutRoot = record.withoutRoot := by
  unfold readRootAttributes
  split
  · rfl
  · split
    · rfl
    · split <;> rfl

theorem readRootAttributes_good {io : RootBridgeIo} (hio : rootBridge.io = some io)
    (hgood : record.RootBridgeGood) :
    (record.readRootAttributes rootBridge).RootBridgeGood ↔ io.segmentNumber = record.segment := by
  unfold readRootAttributes RootBridgeGood
  rw [hio]
  dsimp only
  split
  case isTrue hother => exact iff_of_false (fun hmapped => by cases hmapped) hother
  case isFalse hsame =>
    refine iff_of_true ?_ (not_not.mp hsame)
    split <;> exact hgood

end PciRecord

/-- The firmware found the display's root bridge, and all that it answered about it agrees. -/
structure RootBridgeAnswered (answer : HandleAnswer) (segment : Nat) (path : DevicePath) (io : RootBridgeIo) :
    Prop where
  located : answer.rootBridge.status.isError = false
  handle : answer.rootBridge.handle ≠ 0
  rest : PciRecord.PrefixOf path answer.devicePath.address answer.rootBridge.remaining
  opened : answer.rootBridge.ioStatus.isError = false
  found : answer.rootBridge.io = some io
  parent : io.parentHandle ≠ 0
  segment : io.segmentNumber = segment

namespace PciRecord

variable {address remaining : Nat} {rootBridge : RootBridgeAnswer}

theorem findRootBridge_withoutRoot :
    (record.findRootBridge address rootBridge).withoutRoot = record.withoutRoot := by
  unfold findRootBridge
  rw [unlessFailed_withoutRoot fun _ => openRootBridge_withoutRoot,
    unlessFailed_withoutRoot fun _ => measurePrefix_withoutRoot, locateRootBridge_withoutRoot]

theorem readRootBridge_withoutRoot :
    (record.readRootBridge address rootBridge).withoutRoot = record.withoutRoot := by
  unfold readRootBridge
  split
  · rw [unlessFailed_withoutRoot fun _ => readRootAttributes_withoutRoot, findRootBridge_withoutRoot]
  · rfl

theorem findRootBridge_good {path : DevicePath} (hpath : record.devicePath = some path)
    (hlimit : path.bytes.length ≤ devicePathValidationLimit) :
    (record.findRootBridge address rootBridge).RootBridgeGood ↔
      (rootBridge.status.isError = false ∧ rootBridge.handle ≠ 0) ∧
      PrefixOf path address rootBridge.remaining ∧
      rootBridge.ioStatus.isError = false ∧ ∃ io ∈ rootBridge.io, io.parentHandle ≠ 0 := by
  unfold findRootBridge
  rw [unlessFailed_good, unlessFailed_good, openRootBridge_good, and_assoc]
  constructor
  · rintro ⟨hlocate, hmeasure, hopen⟩
    have hprefix := (measurePrefix_good (by exact hpath) hlimit hlocate).mp hmeasure
    exact ⟨locateRootBridge_good.mp hlocate, hprefix, hopen⟩
  · rintro ⟨hlocated, hprefix, hopen⟩
    have hlocate := (@locateRootBridge_good record _).mpr hlocated
    exact ⟨hlocate, (measurePrefix_good (by exact hpath) hlimit hlocate).mpr hprefix, hopen⟩

theorem readRootBridge_good (hunread : ¬ record.RootBridgeGood)
    (hlimit : ∀ path ∈ record.devicePath, path.bytes.length ≤ devicePathValidationLimit) :
    (record.readRootBridge answer.devicePath.address answer.rootBridge).RootBridgeGood ↔
      recordIsDisplay record.toPciDeviceRecord = true ∧ ∃ path ∈ record.devicePath, ∃ io,
        RootBridgeAnswered answer record.segment path io := by
  unfold readRootBridge
  split
  case isFalse hother =>
    refine iff_of_false hunread ?_
    rintro ⟨hdisplay, path, hpath, -⟩
    exact hother (by simp [hdisplay, Option.mem_def.mp hpath])
  case isTrue hdisplay =>
    rw [Bool.and_eq_true, Option.isSome_iff_exists] at hdisplay
    obtain ⟨hdisplay, path, hpath⟩ := hdisplay
    have hsegment := kept (·.segment)
      (@findRootBridge_withoutRoot record answer.devicePath.address answer.rootBridge)
    rw [unlessFailed_good]
    constructor
    · rintro ⟨hfind, hread⟩
      obtain ⟨⟨hlocated, hhandle⟩, hprefix, hopened, io, hio, hparent⟩ :=
        (findRootBridge_good hpath (hlimit path hpath)).mp hfind
      have hsame := (readRootAttributes_good hio hfind).mp hread
      exact ⟨hdisplay, path, hpath, io, hlocated, hhandle, hprefix, hopened, hio, hparent,
        hsame.trans hsegment⟩
    · rintro ⟨-, path', hpath', io, hanswered⟩
      obtain rfl := Option.mem_unique hpath hpath'
      have hfind := (findRootBridge_good hpath (hlimit path hpath)).mpr
        ⟨⟨hanswered.located, hanswered.handle⟩, hanswered.rest, hanswered.opened, io, hanswered.found,
          hanswered.parent⟩
      exact ⟨hfind, (readRootAttributes_good hanswered.found hfind).mpr
        (hanswered.segment.trans hsegment.symm)⟩

theorem measurePrefix_size (hgood : (record.measurePrefix address remaining).RootBridgeGood) :
    (record.measurePrefix address remaining).rootBridgePrefixSize = remaining - address := by
  unfold measurePrefix RootBridgeGood at *
  split
  case isTrue hout =>
    rw [if_pos hout] at hgood
    cases hgood
  case isFalse => rfl

theorem measurePrefix_handle :
    (record.measurePrefix address remaining).rootBridgeHandle = record.rootBridgeHandle := by
  unfold measurePrefix
  split <;> rfl

theorem readRootAttributes_kept :
    (record.readRootAttributes rootBridge).rootBridgeHandle = record.rootBridgeHandle ∧
      (record.readRootAttributes rootBridge).rootBridgeIo = record.rootBridgeIo ∧
      (record.readRootAttributes rootBridge).rootBridgePrefixSize = record.rootBridgePrefixSize := by
  unfold readRootAttributes
  split
  · exact ⟨rfl, rfl, rfl⟩
  · split
    · exact ⟨rfl, rfl, rfl⟩
    · split <;> exact ⟨rfl, rfl, rfl⟩

/-- What a record says of the root bridge once it was found. -/
structure RootBridgeFound (record : PciRecord) : Prop where
  display : recordIsDisplay record.toPciDeviceRecord = true
  handle : record.rootBridgeHandle ≠ 0
  parent : record.rootBridgeIo.getD 0 ≠ 0
  path : ∃ path ∈ record.devicePath, NodesUpTo path.bytes record.rootBridgePrefixSize

theorem readRootBridge_found (hunread : ¬ record.RootBridgeGood)
    (hlimit : ∀ path ∈ record.devicePath, path.bytes.length ≤ devicePathValidationLimit)
    (hgood : (record.readRootBridge answer.devicePath.address answer.rootBridge).RootBridgeGood) :
    (record.readRootBridge answer.devicePath.address answer.rootBridge).RootBridgeFound := by
  obtain ⟨hdisplay, path, hpath, io, hanswered⟩ := (readRootBridge_good hunread hlimit).mp hgood
  have hlocate := (@locateRootBridge_good record _).mpr ⟨hanswered.located, hanswered.handle⟩
  have hmeasure := (measurePrefix_good (by exact hpath) (hlimit path hpath) hlocate).mpr hanswered.rest
  have hfind := (findRootBridge_good hpath (hlimit path hpath)).mpr
    ⟨⟨hanswered.located, hanswered.handle⟩, hanswered.rest, hanswered.opened, io, hanswered.found,
      hanswered.parent⟩
  have hread : record.readRootBridge answer.devicePath.address answer.rootBridge =
      (((record.locateRootBridge answer.rootBridge).measurePrefix answer.devicePath.address
        answer.rootBridge.remaining).openRootBridge answer.rootBridge).readRootAttributes
          answer.rootBridge := by
    unfold readRootBridge
    rw [hdisplay, Option.mem_def.mp hpath, Option.isSome_some, Bool.and_self, if_pos rfl,
      unlessFailed_of_good hfind, findRootBridge, unlessFailed_of_good hlocate, unlessFailed_of_good hmeasure]
  obtain ⟨hhandle, hio, hsize⟩ := @readRootAttributes_kept
    (((record.locateRootBridge answer.rootBridge).measurePrefix answer.devicePath.address
      answer.rootBridge.remaining).openRootBridge answer.rootBridge) answer.rootBridge
  have hdevice := @readRootBridge_withoutRoot record answer.devicePath.address answer.rootBridge
  refine ⟨?_, ?_, ?_, path, ?_, ?_⟩
  · exact (kept (recordIsDisplay ·.toPciDeviceRecord) hdevice).trans hdisplay
  · rw [hread, hhandle]
    exact measurePrefix_handle.trans_ne hanswered.handle
  · rw [hread, hio, openRootBridge, hanswered.found]
    exact hanswered.parent
  · exact (kept (·.devicePath) hdevice).trans hpath
  · rw [hread, hsize]
    exact (measurePrefix_size hmeasure).symm ▸ hanswered.rest.nodes

/-- The record holds what the root bridge answered about its attributes. -/
def RootAttributesRead (record : PciRecord) (rootBridge : RootBridgeAnswer) : Prop :=
  ∃ io ∈ rootBridge.io, ∃ attributes ∈ io.getAttributes, record.rootAttributesStatus = attributes.status ∧
    record.rootSupportedAttributes = attributes.supported ∧ record.rootCurrentAttributes = attributes.current

theorem readRootAttributes_read (hunread : record.rootAttributesStatus.isError = true)
    (h : (record.readRootAttributes rootBridge).rootAttributesStatus.isError = false) :
    (record.readRootAttributes rootBridge).rootBridgeStatus = record.rootBridgeStatus ∧
      (record.readRootAttributes rootBridge).RootAttributesRead rootBridge := by
  unfold readRootAttributes RootAttributesRead at *
  cases hio : rootBridge.io with
  | none => simp [hio, hunread] at h
  | some io =>
      by_cases hsegment : io.segmentNumber = record.segment
      · cases hattributes : io.getAttributes with
        | none => simp [hio, hsegment, hattributes, EfiStatus.isError] at h
        | some attributes => simp [hsegment, hattributes]
      · simp [hio, hsegment, hunread] at h

/-- The attributes of a root bridge are asked for once it was found. -/
theorem rootAttributes_found (hunread : record.rootAttributesStatus.isError = true)
    (h : (record.readRootBridge address rootBridge).rootAttributesStatus.isError = false) :
    (record.readRootBridge address rootBridge).RootBridgeGood ∧
      (record.readRootBridge address rootBridge).RootAttributesRead rootBridge := by
  have hfind : (record.findRootBridge address rootBridge).rootAttributesStatus.isError = true := by
    rw [← hunread]
    unfold findRootBridge unlessFailed openRootBridge measurePrefix locateRootBridge
    dsimp only
    repeat' split
    all_goals rfl
  unfold readRootBridge at h ⊢
  split at h
  case isFalse => exact absurd hunread (by simp [h])
  case isTrue hdisplay =>
    rw [if_pos hdisplay]
    by_cases hgood : (record.findRootBridge address rootBridge).RootBridgeGood
    · rw [unlessFailed_of_good hgood] at h ⊢
      obtain ⟨hstill, hread⟩ := readRootAttributes_read hfind h
      exact ⟨(congrArg EfiStatus.isError hstill).trans hgood, hread⟩
    · rw [unlessFailed, if_pos (by simpa [RootBridgeGood] using hgood), hfind] at h
      cases h

end PciRecord

/-! ### The inventory -/

/-- What the records of an inventory have in common. -/
structure PciRecord.Built (record : PciRecord) : Prop where
  pciIo : record.pciIo ≠ 0
  config : record.config.length = pciProbeConfigBytes
  read : record.configStatus.isError = false → record.pciRead = true
  devicePath : record.devicePathStatus.isError = false → record.devicePath.isSome = true
  limit : ∀ path ∈ record.devicePath, path.bytes.length ≤ devicePathValidationLimit
  rootBridge : record.rootBridgeStatus.isError = false → record.RootBridgeFound
  rootAttributes : record.rootAttributesStatus.isError = false → record.rootBridgeStatus.isError = false

/-- What a record starts with, and keeps until its root bridge is looked for. -/
def PciRecord.given (record : PciRecord) : Nat × Nat × Bool × EfiStatus × EfiStatus :=
  (record.handle, record.pciIo, record.pciRead, record.rootBridgeStatus, record.rootAttributesStatus)

/-- What the step to the device path leaves alone. -/
def PciRecord.withoutPath (record : PciRecord) : PciRecord :=
  { record with devicePath := none, devicePathStatus := .notReady }

section

variable {getLocation : Option LocationAnswer} {read : Option ConfigAnswer} {devicePath : DevicePathAnswer}
  {attributes : Option (AttributesAnswer × AttributesAnswer)}

theorem readLocation_given : (record.readLocation getLocation).given = record.given := by
  cases getLocation <;> rfl

theorem readConfig_given : (record.readConfig read).given = record.given := by
  cases read <;> rfl

theorem readAttributes_given : (record.readAttributes attributes).given = record.given := by
  cases attributes <;> rfl

theorem readAttributes_config : (record.readAttributes attributes).config = record.config ∧
    (record.readAttributes attributes).configStatus = record.configStatus := by
  cases attributes <;> exact ⟨rfl, rfl⟩

theorem readConfig_read (hconfig : record.config.length = pciProbeConfigBytes) :
    (record.readConfig read).config.length = pciProbeConfigBytes ∧
      ((record.readConfig read).configStatus.isError = false → read.isSome = true) := by
  cases read with
  | none => exact ⟨hconfig, fun hread => by cases hread⟩
  | some answer => exact ⟨by simp [PciRecord.readConfig, pciProbeConfigBytes], fun _ => rfl⟩

theorem readDevicePath_withoutPath : (record.readDevicePath devicePath).withoutPath = record.withoutPath := by
  unfold PciRecord.readDevicePath
  split
  · rfl
  · split
    · rfl
    · split <;> rfl

theorem readDevicePath_path (hnone : record.devicePath = none) :
    ((record.readDevicePath devicePath).devicePathStatus.isError = false →
      (record.readDevicePath devicePath).devicePath.isSome = true) ∧
    ∀ path ∈ (record.readDevicePath devicePath).devicePath, path.bytes.length ≤ devicePathValidationLimit := by
  unfold PciRecord.readDevicePath
  split
  case isTrue hfailed =>
    refine ⟨fun hgood => ?_, by simp [hnone]⟩
    exact absurd hfailed (by simpa using hgood)
  case isFalse =>
    split
    case h_1 => exact ⟨fun hgood => (by cases hgood), by simp [hnone]⟩
    case h_2 path _ =>
      split
      case isTrue => exact ⟨fun hgood => (by cases hgood), by simp [hnone]⟩
      case isFalse hvalid =>
        refine ⟨fun _ => rfl, fun path' hpath' => ?_⟩
        cases hpath'
        omega

end

/-- The record before its device path is asked for. -/
def HandleAnswer.attributesRecord (answer : HandleAnswer) : PciRecord :=
  ((answer.record.readLocation answer.getLocation).readConfig answer.read).readAttributes answer.attributes

theorem deviceRecord_withoutPath :
    answer.deviceRecord.withoutPath = answer.attributesRecord.withoutPath := readDevicePath_withoutPath

theorem deviceRecord_given : answer.deviceRecord.given = answer.record.given := by
  have hkept : answer.deviceRecord.given = answer.attributesRecord.given :=
    PciRecord.kept PciRecord.given deviceRecord_withoutPath
  rw [hkept, HandleAnswer.attributesRecord, readAttributes_given, readConfig_given, readLocation_given]

theorem deviceRecord_config : answer.deviceRecord.config.length = pciProbeConfigBytes ∧
    (answer.deviceRecord.configStatus.isError = false → answer.read.isSome = true) := by
  have hlength : (answer.record.readLocation answer.getLocation).config.length = pciProbeConfigBytes := by
    cases answer.getLocation <;> exact List.length_replicate
  have hconfig : answer.deviceRecord.config = answer.attributesRecord.config :=
    PciRecord.kept (·.config) deviceRecord_withoutPath
  have hstatus : answer.deviceRecord.configStatus = answer.attributesRecord.configStatus :=
    PciRecord.kept (·.configStatus) deviceRecord_withoutPath
  obtain ⟨hconfig', hstatus'⟩ := @readAttributes_config
    ((answer.record.readLocation answer.getLocation).readConfig answer.read) answer.attributes
  obtain ⟨hread, hgood⟩ := @readConfig_read _ answer.read hlength
  rw [hconfig, hstatus, HandleAnswer.attributesRecord, hconfig', hstatus']
  exact ⟨hread, hgood⟩

theorem deviceRecord_path :
    (answer.deviceRecord.devicePathStatus.isError = false → answer.deviceRecord.devicePath.isSome = true) ∧
    ∀ path ∈ answer.deviceRecord.devicePath, path.bytes.length ≤ devicePathValidationLimit := by
  refine readDevicePath_path ?_
  cases answer.getLocation <;> cases answer.read <;> cases answer.attributes <;> rfl

theorem deviceRecord_unread : ¬ answer.deviceRecord.RootBridgeGood ∧
    answer.deviceRecord.rootAttributesStatus.isError = true := by
  have hunread : answer.deviceRecord.rootBridgeStatus = .notReady := congrArg (·.2.2.2.1) deviceRecord_given
  have hunasked : answer.deviceRecord.rootAttributesStatus = .notReady :=
    congrArg (·.2.2.2.2) deviceRecord_given
  unfold PciRecord.RootBridgeGood
  rw [hunread, hunasked]
  exact ⟨Bool.noConfusion, rfl⟩

/-- A record is its device's, but for its root bridge. -/
theorem buildRecord_withoutRoot : (buildRecord answer).withoutRoot = answer.deviceRecord.withoutRoot :=
  PciRecord.readRootBridge_withoutRoot

/-- Whatever the firmware answers about a handle with PCI I/O. -/
theorem buildRecord_built (hpciIo : answer.pciIo ≠ 0) : (buildRecord answer).Built := by
  obtain ⟨hconfig, hread⟩ := @deviceRecord_config answer
  obtain ⟨hpath, hlimit⟩ := @deviceRecord_path answer
  obtain ⟨hbad, hunasked⟩ := @deviceRecord_unread answer
  have hgiven := @deviceRecord_given answer
  have hdevice := @buildRecord_withoutRoot answer
  have hkept : (buildRecord answer).devicePath = answer.deviceRecord.devicePath :=
    PciRecord.kept (·.devicePath) hdevice
  refine ⟨?_, ?_, ?_, ?_, ?_, ?_, ?_⟩
  · have hsame : (buildRecord answer).pciIo = answer.pciIo :=
      (PciRecord.kept (·.pciIo) hdevice).trans (congrArg (·.2.1) hgiven)
    exact hsame.trans_ne hpciIo
  · exact (PciRecord.kept (·.config.length) hdevice).trans hconfig
  · intro hgood
    have hsame : (buildRecord answer).pciRead = answer.read.isSome :=
      (PciRecord.kept (·.pciRead) hdevice).trans (congrArg (·.2.2.1) hgiven)
    rw [hsame]
    exact hread ((PciRecord.kept (·.configStatus) hdevice) ▸ hgood)
  · intro hgood
    rw [hkept]
    exact hpath ((PciRecord.kept (·.devicePathStatus) hdevice) ▸ hgood)
  · rw [hkept]
    exact hlimit
  · exact PciRecord.readRootBridge_found hbad hlimit
  · exact fun h => (PciRecord.rootAttributes_found hunasked h).1

theorem buildRecord_handle : (buildRecord answer).handle = answer.handle :=
  (PciRecord.kept (·.handle) buildRecord_withoutRoot).trans (congrArg (·.1) deviceRecord_given)

/-- When the root bridge of a record was found. -/
theorem buildRecord_rootBridge_iff : (buildRecord answer).rootBridgeStatus.isError = false ↔
    recordIsDisplay (buildRecord answer).toPciDeviceRecord = true ∧
      ∃ path ∈ (buildRecord answer).devicePath, ∃ io,
        RootBridgeAnswered answer (buildRecord answer).segment path io := by
  have hdevice := @buildRecord_withoutRoot answer
  have hdisplay : recordIsDisplay (buildRecord answer).toPciDeviceRecord =
      recordIsDisplay answer.deviceRecord.toPciDeviceRecord :=
    PciRecord.kept (recordIsDisplay ·.toPciDeviceRecord) hdevice
  have hpath : (buildRecord answer).devicePath = answer.deviceRecord.devicePath :=
    PciRecord.kept (·.devicePath) hdevice
  have hsegment : (buildRecord answer).segment = answer.deviceRecord.segment :=
    PciRecord.kept (·.segment) hdevice
  rw [hdisplay, hpath, hsegment]
  exact PciRecord.readRootBridge_good deviceRecord_unread.1 deviceRecord_path.2

theorem built_of_mem_buildRecords {handles : List HandleAnswer} (h : record ∈ buildRecords handles) :
    record.Built := by
  obtain ⟨answer, hanswer, rfl⟩ := List.mem_map.mp h
  have hpciIo := (List.mem_filter.mp hanswer).2
  rw [Bool.and_eq_true, bne_iff_ne] at hpciIo
  exact buildRecord_built hpciIo.2

/-- The PCI I/O of the handle can be had. -/
def HandleAnswer.HasPciIo (answer : HandleAnswer) : Prop := answer.status.isError = false ∧ answer.pciIo ≠ 0

instance : DecidablePred HandleAnswer.HasPciIo := fun _ => inferInstanceAs (Decidable (_ ∧ _))

/-- The record of a handle: well built, and with a root bridge just where the handle's answers agree on it. -/
structure RecordOf (answer : HandleAnswer) (record : PciRecord) : Prop where
  handle : record.handle = answer.handle
  pciIo : record.pciIo = answer.pciIo
  built : record.Built
  rootBridge : record.rootBridgeStatus.isError = false ↔ recordIsDisplay record.toPciDeviceRecord = true ∧
    ∃ path ∈ record.devicePath, ∃ io, RootBridgeAnswered answer record.segment path io

theorem recordOf_buildRecord (h : answer.HasPciIo) : RecordOf answer (buildRecord answer) where
  handle := buildRecord_handle
  pciIo := (PciRecord.kept (·.pciIo) buildRecord_withoutRoot).trans (congrArg (·.2.1) deviceRecord_given)
  built := buildRecord_built h.2
  rootBridge := buildRecord_rootBridge_iff

theorem buildRecords_eq {handles : List HandleAnswer} :
    buildRecords handles = (handles.filter fun answer => decide answer.HasPciIo).map buildRecord := by
  unfold buildRecords
  congr 2
  funext answer
  rw [Bool.eq_iff_iff, decide_eq_true_eq, Bool.and_eq_true, Bool.not_eq_true', bne_iff_ne, HandleAnswer.HasPciIo]

/-- **What an inventory holds.** One record for each handle whose PCI I/O can be had, in the firmware's order,
each of them well built; and a root bridge was found just where the firmware's answers agree on it. -/
theorem pciInventoryBuild_records {located : EfiStatus} {handles : List HandleAnswer} {granted : Bool}
    {freed : Option EfiStatus} {records : List PciRecord}
    (h : pciInventoryBuild located handles granted freed = .ok records) :
    List.Forall₂ RecordOf (handles.filter fun answer => decide answer.HasPciIo) records := by
  have hrecords : records = buildRecords handles := by
    unfold pciInventoryBuild afterFree at h
    split at h
    case isTrue => cases h
    split at h
    case isTrue hnone =>
      cases h
      rw [List.length_eq_zero_iff.mp hnone]
      rfl
    case isFalse =>
      split at h
      case isTrue => cases h
      split at h
      case isTrue => cases h
      case isFalse =>
        cases h
        rfl
  rw [hrecords, buildRecords_eq, List.forall₂_map_right_iff, List.forall₂_same]
  intro answer hanswer
  exact recordOf_buildRecord (of_decide_eq_true (List.mem_filter.mp hanswer).2)

/-- A display on the root bridge whose node has twelve bytes. -/
def sampleHandle : HandleAnswer where
  handle := 1
  status := .success
  pciIo := 2
  getLocation := some ⟨.success, 0, 1, 0, 0⟩
  read := some ⟨.success, (Vector.replicate 64 0).set 11 3⟩
  attributes := none
  devicePath := ⟨.success, 4096, some ⟨[2, 1, 12, 0, 208, 65, 3, 10, 0, 0, 0, 0] ++ [1, 1, 6, 0, 0, 1] ++
    endDevicePath, List.suffix_append ..⟩⟩
  rootBridge := ⟨.success, 3, 4108, .success, some ⟨4, 0, none⟩⟩

/-- A handle without PCI I/O gets no record; the two displays get theirs in the firmware's order, and their root
bridge is found. -/
theorem pciInventoryBuild_records_sample :
    List.Forall₂ RecordOf [sampleHandle, { sampleHandle with handle := 3 }]
      (buildRecords [sampleHandle, { sampleHandle with handle := 2, pciIo := 0 }, { sampleHandle with handle := 3 }]) ∧
    (buildRecord sampleHandle).rootBridgeStatus.isError = false := by
  have hbuild : pciInventoryBuild .success
      [sampleHandle, { sampleHandle with handle := 2, pciIo := 0 }, { sampleHandle with handle := 3 }] true
        (some .success) =
      .ok (buildRecords [sampleHandle, { sampleHandle with handle := 2, pciIo := 0 },
        { sampleHandle with handle := 3 }]) := rfl
  exact ⟨pciInventoryBuild_records hbuild, by decide +kernel⟩

/-! ### A bridge -/

def plannedPath (devices : List UInt8) : DevicePathAnswer :=
  ⟨.success, 4096, some ⟨[2, 1, 12, 0, 208, 65, 3, 10, 0, 0, 0, 0] ++
    devices.flatMap (fun device => [1, 1, 6, 0, 0, device]) ++ endDevicePath, List.suffix_append ..⟩⟩

def plannedBridge : HandleAnswer :=
  { sampleHandle with
    handle := 5
    getLocation := some ⟨.success, 0, 0, 1, 0⟩
    read := some ⟨.success, ((((Vector.replicate 64 0).set! 10 4).set! 11 6).set! 14 1).set! 25 1 |>.set! 26 1⟩
    devicePath := plannedPath [1] }

end CsmVgaSelector
