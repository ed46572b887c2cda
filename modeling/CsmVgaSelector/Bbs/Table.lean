import Mathlib.Tactic.Common

/-!
# The BBS table

One row of the firmware's boot table, with the fields of the packed `BBS_TABLE` in their order, and the
checksums the transaction keeps over it. `BootPriority` is the first field and the only one the program
may write; the other 67 bytes are the row's identity.
-/

namespace CsmVgaSelector

structure BbsTable where
  bootPriority : UInt16
  bus : UInt32
  device : UInt32
  function : UInt32
  class_ : UInt8
  subClass : UInt8
  mfgStringOffset : UInt16
  mfgStringSegment : UInt16
  deviceType : UInt16
  statusFlags : UInt16
  bootHandlerOffset : UInt16
  bootHandlerSegment : UInt16
  descStringOffset : UInt16
  descStringSegment : UInt16
  initPerReserved : UInt32
  additionalIrq13Handler : UInt32
  additionalIrq18Handler : UInt32
  additionalIrq19Handler : UInt32
  additionalIrq40Handler : UInt32
  assignedDriveNumber : UInt8
  additionalIrq41Handler : UInt32
  additionalIrq46Handler : UInt32
  ibv1 : UInt32
  ibv2 : UInt32
  deriving DecidableEq, Repr, Inhabited

def bbsHardDisk : UInt16 := 0x02

def bbsDoNotBootFrom : UInt16 := 0xFFFC
def bbsLowestPriority : UInt16 := 0xFFFD
def bbsUnprioritizedEntry : UInt16 := 0xFFFE
def bbsIgnoreEntry : UInt16 := 0xFFFF

def writeLe16 (value : UInt16) : List UInt8 := [value.toUInt8, (value >>> 8).toUInt8]

def writeLe32 (value : UInt32) : List UInt8 :=
  [value.toUInt8, (value >>> 8).toUInt8, (value >>> 16).toUInt8, (value >>> 24).toUInt8]

namespace BbsTable

/-- The row with its priority field replaced. -/
def withPriority (entry : BbsTable) (priority : UInt16) : BbsTable :=
  { entry with bootPriority := priority }

/-- The comparison of the 67 bytes after `BootPriority`. -/
def sameIdentity (left right : BbsTable) : Bool :=
  left.withPriority 0 == right.withPriority 0

/-- The 67 bytes after `BootPriority`, as they lie in memory. -/
def identityBytes (entry : BbsTable) : List UInt8 :=
  writeLe32 entry.bus ++ writeLe32 entry.device ++ writeLe32 entry.function ++
    [entry.class_, entry.subClass] ++
    writeLe16 entry.mfgStringOffset ++ writeLe16 entry.mfgStringSegment ++
    writeLe16 entry.deviceType ++ writeLe16 entry.statusFlags ++
    writeLe16 entry.bootHandlerOffset ++ writeLe16 entry.bootHandlerSegment ++
    writeLe16 entry.descStringOffset ++ writeLe16 entry.descStringSegment ++
    writeLe32 entry.initPerReserved ++ writeLe32 entry.additionalIrq13Handler ++
    writeLe32 entry.additionalIrq18Handler ++ writeLe32 entry.additionalIrq19Handler ++
    writeLe32 entry.additionalIrq40Handler ++ [entry.assignedDriveNumber] ++
    writeLe32 entry.additionalIrq41Handler ++ writeLe32 entry.additionalIrq46Handler ++
    writeLe32 entry.ibv1 ++ writeLe32 entry.ibv2

def bytes (entry : BbsTable) : List UInt8 := writeLe16 entry.bootPriority ++ entry.identityBytes

@[simp] theorem withPriority_bootPriority (entry : BbsTable) (priority : UInt16) :
    (entry.withPriority priority).bootPriority = priority :=
  rfl

@[simp] theorem withPriority_withPriority (entry : BbsTable) (first second : UInt16) :
    (entry.withPriority first).withPriority second = entry.withPriority second :=
  rfl

@[simp] theorem withPriority_self (entry : BbsTable) :
    entry.withPriority entry.bootPriority = entry :=
  rfl

theorem sameIdentity_iff {left right : BbsTable} :
    sameIdentity left right = true ↔ left.withPriority 0 = right.withPriority 0 := by
  simp [sameIdentity]

@[simp] theorem sameIdentity_refl (entry : BbsTable) : sameIdentity entry entry = true := by
  simp [sameIdentity]

/-- Two rows with one identity differ in the priority only. -/
theorem eq_withPriority_of_sameIdentity {left right : BbsTable} (h : sameIdentity left right = true) :
    left = right.withPriority left.bootPriority := by
  have h := congrArg (withPriority · left.bootPriority) (sameIdentity_iff.mp h)
  simpa using h

@[simp] theorem sameIdentity_withPriority_left (left right : BbsTable) (priority : UInt16) :
    sameIdentity (left.withPriority priority) right = sameIdentity left right :=
  rfl

theorem eq_of_sameIdentity {left right : BbsTable} (h : sameIdentity left right = true)
    (hpriority : left.bootPriority = right.bootPriority) : left = right := by
  rw [eq_withPriority_of_sameIdentity h, hpriority, withPriority_self]

end BbsTable

/-! ### Checksums -/

def crc32Bit (crc : UInt32) : UInt32 :=
  (crc >>> 1) ^^^ (0xEDB88320 &&& (0 - (crc &&& 1)))

def legacyBootCrc32Update (runningCrc : UInt32) (bytes : List UInt8) : UInt32 :=
  bytes.foldl (fun crc byte => Nat.repeat crc32Bit 8 (crc ^^^ byte.toUInt32)) runningCrc

def legacyBootCrc32 (bytes : List UInt8) : UInt32 := ~~~ legacyBootCrc32Update 0xFFFFFFFF bytes

def tableBytes (table : List BbsTable) : List UInt8 := table.flatMap BbsTable.bytes

def legacyBootBbsIdentityCrc32 (table : List BbsTable) : UInt32 :=
  legacyBootCrc32 (table.flatMap BbsTable.identityBytes)

def legacyBootBbsPriorityCrc32FromVector (priorities : List UInt16) : UInt32 :=
  legacyBootCrc32 (priorities.flatMap writeLe16)

def legacyBootBbsPriorityCrc32FromTable (table : List BbsTable) : UInt32 :=
  legacyBootBbsPriorityCrc32FromVector (table.map BbsTable.bootPriority)

end CsmVgaSelector
