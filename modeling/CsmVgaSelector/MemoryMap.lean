import CsmVgaSelector.Bytes

/-!
# The memory map

Before the program follows a pointer of the firmware it asks the memory map whether the whole range may be
read. Descriptors come in any order and may overlap; a byte that two of them claim belongs to nobody. The
native word has 64 bits.
-/

namespace CsmVgaSelector

def maxUint64 : Nat := 2 ^ 64 - 1
def efiPageSize : Nat := 4096
def efiMemoryDescriptorBytes : Nat := 40

def efiReservedMemoryType : Nat := 0
def efiLoaderCode : Nat := 1
def efiLoaderData : Nat := 2
def efiBootServicesCode : Nat := 3
def efiBootServicesData : Nat := 4
def efiRuntimeServicesCode : Nat := 5
def efiRuntimeServicesData : Nat := 6
def efiConventionalMemory : Nat := 7
def efiAcpiReclaimMemory : Nat := 9
def efiAcpiMemoryNvs : Nat := 10
def efiPersistentMemory : Nat := 14

def efiMemoryWp : Nat := 0x1000
def efiMemoryRp : Nat := 0x2000
def efiMemoryRo : Nat := 0x20000

/-- A little-endian field of so many bytes. -/
def readLe (bytes : List UInt8) (offset : Nat) : Nat → Nat
  | 0 => 0
  | width + 1 => bytes[offset]!.toNat + 256 * readLe bytes (offset + 1) width

/-- `EFI_MEMORY_DESCRIPTOR`, without the virtual address, which nothing reads. -/
structure EfiMemoryDescriptor where
  type : Nat
  physicalStart : Nat
  numberOfPages : Nat
  attribute_ : Nat
  deriving DecidableEq

def efiMemoryDescriptor (map : List UInt8) (walker : Nat) : EfiMemoryDescriptor where
  type := readLe map walker 4
  physicalStart := readLe map (walker + 8) 8
  numberOfPages := readLe map (walker + 24) 8
  attribute_ := readLe map (walker + 32) 8

/-- The map as the firmware returned it: so many bytes, with a descriptor every `descriptorSize` of them. -/
structure MemoryMapSnapshot where
  map : List UInt8
  descriptorSize : Nat

namespace MemoryMapSnapshot

def mapSize (snapshot : MemoryMapSnapshot) : Nat := snapshot.map.length

def descriptors (snapshot : MemoryMapSnapshot) : List EfiMemoryDescriptor :=
  (List.range (snapshot.mapSize / snapshot.descriptorSize)).map fun index =>
    efiMemoryDescriptor snapshot.map (index * snapshot.descriptorSize)

end MemoryMapSnapshot

def memoryTypeMayBeRead (type : Nat) : Bool :=
  type ∈ [efiReservedMemoryType, efiLoaderCode, efiLoaderData, efiBootServicesCode, efiBootServicesData,
    efiRuntimeServicesCode, efiRuntimeServicesData, efiConventionalMemory, efiAcpiReclaimMemory,
    efiAcpiMemoryNvs, efiPersistentMemory]

/-- What the type and the attributes of a descriptor forbid. -/
def mayNotAccess (descriptor : EfiMemoryDescriptor) (writable : Bool) : Bool :=
  !memoryTypeMayBeRead descriptor.type || descriptor.attribute_ &&& efiMemoryRp != 0 ||
    writable && (descriptor.attribute_ &&& (efiMemoryRo ||| efiMemoryWp) != 0 ||
      descriptor.type == efiLoaderCode || descriptor.type == efiBootServicesCode ||
      descriptor.type == efiRuntimeServicesCode || descriptor.type == efiPersistentMemory)

/-- What one pass over the map has found out about the cursor. -/
structure MapScan where
  covering : Option EfiMemoryDescriptor := none
  overlap : Bool := false
  coveredLast : Nat := 0
  nextStart : Nat := maxUint64

/-- One descriptor of the pass; nothing when it overflows. -/
def scanDescriptor (cursor : Nat) (scan : MapScan) (descriptor : EfiMemoryDescriptor) : Option MapScan :=
  if descriptor.numberOfPages > maxUint64 / efiPageSize then none
  else
    let descriptorBytes := descriptor.numberOfPages * efiPageSize
    if descriptorBytes = 0 then some scan
    else if descriptor.physicalStart > maxUint64 - (descriptorBytes - 1) then none
    else
      let descriptorLast := descriptor.physicalStart + descriptorBytes - 1
      if cursor ≥ descriptor.physicalStart ∧ cursor ≤ descriptorLast then
        some
          { scan with
            covering := some descriptor
            overlap := scan.overlap || scan.covering.isSome
            coveredLast := descriptorLast }
      else if descriptor.physicalStart > cursor ∧ descriptor.physicalStart < scan.nextStart then
        some { scan with nextStart := descriptor.physicalStart }
      else some scan

def scanMap (descriptors : List EfiMemoryDescriptor) (cursor : Nat) : Option MapScan :=
  descriptors.foldlM (scanDescriptor cursor) {}

/-- The last byte, from the cursor on, that the covering descriptor has to itself. -/
def MapScan.soleLast (scan : MapScan) : Nat :=
  let coveredLast :=
    if scan.nextStart ≠ maxUint64 ∧ scan.nextStart ≤ scan.coveredLast then scan.nextStart - 1
    else scan.coveredLast
  if coveredLast > maxUintn then maxUintn else coveredLast

/-- A pass that finds the cursor covered finds an extent that ends behind it. -/
structure MapScan.Ahead (cursor : Nat) (scan : MapScan) : Prop where
  covered : scan.covering ≠ none → cursor ≤ scan.coveredLast
  nextStart : scan.nextStart = maxUint64 ∨ cursor < scan.nextStart

theorem scanDescriptor_ahead {cursor : Nat} {scan scan' : MapScan} {descriptor : EfiMemoryDescriptor}
    (h : scan.Ahead cursor) (hscan : scanDescriptor cursor scan descriptor = some scan') :
    scan'.Ahead cursor := by
  unfold scanDescriptor at hscan
  dsimp only at hscan
  split at hscan
  case isTrue => cases hscan
  split at hscan
  case isTrue =>
    cases hscan
    exact h
  split at hscan
  case isTrue => cases hscan
  split at hscan
  case isTrue hcovers =>
    cases hscan
    exact ⟨fun _ => hcovers.2, h.nextStart⟩
  split at hscan
  case isTrue hnext =>
    cases hscan
    exact ⟨h.covered, .inr hnext.1⟩
  case isFalse =>
    cases hscan
    exact h

theorem foldlM_ahead {cursor : Nat} {descriptors : List EfiMemoryDescriptor} {scan scan' : MapScan}
    (h : scan.Ahead cursor) (hscan : descriptors.foldlM (scanDescriptor cursor) scan = some scan') :
    scan'.Ahead cursor := by
  induction descriptors generalizing scan with
  | nil =>
      cases hscan
      exact h
  | cons descriptor rest ih =>
      rw [List.foldlM_cons, Option.bind_eq_bind, Option.bind_eq_some_iff] at hscan
      obtain ⟨next, hnext, hrest⟩ := hscan
      exact ih (scanDescriptor_ahead h hnext) hrest

theorem MapScan.Ahead.le_soleLast {cursor : Nat} {scan : MapScan} (h : scan.Ahead cursor)
    (hcovering : scan.covering ≠ none) (hlast : scan.soleLast < maxUintn) :
    cursor ≤ scan.soleLast := by
  have hcovered := h.covered hcovering
  have hnext := h.nextStart
  unfold MapScan.soleLast at hlast ⊢
  dsimp only at hlast ⊢
  split_ifs at hlast ⊢ <;> omega

/-- The bytes from the address up to this one, as far as the native word counts. -/
def availableUpTo (address coveredLast : Nat) : Nat :=
  if coveredLast - address ≥ maxUintn then maxUintn else coveredLast - address + 1

/-- From this cursor, with so many bytes behind it: how many there are when the walk ends, or nothing when a
descriptor overflows. -/
def walkRange (descriptors : List EfiMemoryDescriptor) (address length : Nat) (measured writable : Bool)
    (cursor available : Nat) : Option Nat :=
  match _hscan : scanMap descriptors cursor with
  | none => none
  | some scan =>
      match _hcovering : scan.covering with
      | none => some available
      | some covering =>
          if scan.overlap || mayNotAccess covering writable then some available
          else
            let coveredLast := scan.soleLast
            let available := availableUpTo address coveredLast
            if _hend : !measured && available ≥ length || coveredLast ≥ maxUintn then some available
            else walkRange descriptors address length measured writable (coveredLast + 1) available
  termination_by maxUintn + 1 - cursor
  decreasing_by
    have hlast : scan.soleLast < maxUintn := by
      rw [Bool.or_eq_true, not_or, decide_eq_true_eq] at _hend
      exact Nat.lt_of_not_ge _hend.2
    have hahead := foldlM_ahead ⟨by simp, .inl rfl⟩ _hscan
    have hle := hahead.le_soleLast (by simp [_hcovering]) hlast
    omega

/-- `MemoryMapRangeAccessible`: the answer, and what it leaves in `ReadableBytes` when that is asked for. -/
def memoryMapRangeAccessible (snapshot : MemoryMapSnapshot) (address length : Nat)
    (measured writable : Bool) : Bool × Nat :=
  if snapshot.descriptorSize < efiMemoryDescriptorBytes ∨ snapshot.mapSize = 0 ∨
      snapshot.mapSize % snapshot.descriptorSize ≠ 0 ∨ length = 0 ∨ address > maxUintn - (length - 1) then
    (false, 0)
  else
    match walkRange snapshot.descriptors address length measured writable address 0 with
    | none => (false, 0)
    | some available => (decide (available ≥ length), available)

def MemoryMapSnapshot.memoryMapRangeIsReadable (snapshot : MemoryMapSnapshot) (address length : Nat)
    (measured : Bool) : Bool × Nat :=
  memoryMapRangeAccessible snapshot address length measured false

def MemoryMapSnapshot.memoryMapRangeIsWritable (snapshot : MemoryMapSnapshot) (address length : Nat) :
    Bool :=
  (memoryMapRangeAccessible snapshot address length false true).1

end CsmVgaSelector
