import CsmVgaSelector.Config.Text
import CsmVgaSelector.Lib.Peek

/-!
# Names of devices

The lookup goes through the text of `pci.ids` once, from line to line. A vendor's line starts its block, any
other line that is neither blank, a comment nor indented ends it, and the first line for the device in it gives
the name. Its indices have no bound here; behind them stands the limit of `PciNamesLoad`, which takes at most 4 MiB
(`PCI_IDS_LIMIT`), so that not even the 32-bit index of the name wraps.
-/

namespace CsmVgaSelector

open Peek

/-- Reads of the text, by their places. -/
abbrev PciIdRead (α : Type) := Peek Nat UInt8 α

def blank : UInt8 := 0x20

def tabulator : UInt8 := 0x09

/-- `Hex4`, from this digit on. -/
def hexDigitsAt : Nat → Nat → Nat → PciIdRead (Option Nat)
  | 0, _, value => return some value
  | count + 1, index, value => do
      let character ← peek index
      match hexDigit character with
      | none => return none
      | some digit => hexDigitsAt count (index + 1) (value * 16 + digit)

def hex4 (index : Nat) : PciIdRead (Option Nat) := hexDigitsAt 4 index 0

/-- Where the line ends, of which so many bytes may be left. -/
def lineEnd : Nat → Nat → PciIdRead Nat
  | 0, stop => return stop
  | left + 1, stop => do
      let character ← peek stop
      if character = lineFeed then return stop else lineEnd left (stop + 1)

/-- `N`, without a carriage return at the end. -/
def lineLength (start stop : Nat) : PciIdRead Nat :=
  if stop - start = 0 then return 0
  else do
    let last ← peek (start + (stop - start) - 1)
    return if last = carriageReturn then stop - start - 1 else stop - start

/-- Two blanks from here on. -/
def twoBlanks (index : Nat) : PciIdRead Bool := do
  let first ← peek index
  if first ≠ blank then return false
  else
    let second ← peek (index + 1)
    return second == blank

/-- The vendor that the line names. -/
def vendorAt (start length : Nat) : PciIdRead (Option Nat) :=
  if length < 6 then return none
  else do
    let first ← peek start
    if first = tabulator then return none
    else
      match ← hex4 start with
      | none => return none
      | some id =>
          let blanks ← twoBlanks (start + 4)
          return if blanks then some id else none

/-- Whether the line ends the block, where it names no vendor. -/
def endsBlock (start length : Nat) : PciIdRead Bool :=
  if length = 0 then return false
  else do
    let first ← peek start
    return first != byte '#' && first != tabulator && first != blank

/-- Whether the line is for this device, in a block of the vendor. -/
def isDeviceAt (matched : Bool) (device start length : Nat) : PciIdRead Bool :=
  if !matched || length < 8 then return false
  else do
    let first ← peek start
    if first ≠ tabulator then return false
    else
      match ← hex4 (start + 1) with
      | none => return false
      | some id => if id ≠ device then return false else twoBlanks (start + 5)

def skipBlanks : Nat → Nat → PciIdRead Nat
  | 0, index => return index
  | left + 1, index => do
      let character ← peek index
      if character = blank then skipBlanks left (index + 1) else return index

/-- So many bytes are left without the blanks and tabulators before `stop`. -/
def trimBlanks : Nat → Nat → PciIdRead Nat
  | 0, _ => return 0
  | left + 1, stop => do
      let character ← peek (stop - 1)
      if character = blank || character = tabulator then trimBlanks left (stop - 1) else return left + 1

def hasControl : Nat → Nat → PciIdRead Bool
  | 0, _ => return false
  | left + 1, index => do
      let character ← peek index
      if character < 32 then return true else hasControl left (index + 1)

def copyName : Nat → Nat → PciIdRead Bytes
  | 0, _ => return []
  | left + 1, index => do
      let character ← peek index
      let name ← copyName left (index + 1)
      return (if character < 127 then character else byte '?') :: name

/-- The result, and the text in `Name` before its terminator. -/
def nameAt (capacity start length : Nat) : PciIdRead (Bool × Bytes) := do
  let first ← skipBlanks (length - 7) (start + 7)
  let left ← trimBlanks (start + length - first) (start + length)
  if left = 0 then return (false, [])
  else
    let control ← hasControl left first
    if control then return (false, [])
    else
      let name ← copyName (min left (capacity - 1)) first
      return (name ≠ [], name)

/-- The loop over the lines, of which there are no more than bytes. -/
def lookupFrom (size vendor device capacity : Nat) : Nat → Nat → Bool → PciIdRead (Bool × Bytes)
  | 0, _, _ => return (false, [])
  | lines + 1, start, matched =>
      if size ≤ start then return (false, [])
      else do
        let stop ← lineEnd (size - start) start
        let length ← lineLength start stop
        let next := if stop < size then stop + 1 else size
        match ← vendorAt start length with
        | some id => lookupFrom size vendor device capacity lines next (id == vendor)
        | none =>
            let ends ← endsBlock start length
            if ends then lookupFrom size vendor device capacity lines next false
            else
              let found ← isDeviceAt matched device start length
              if found then nameAt capacity start length
              else lookupFrom size vendor device capacity lines next matched

/-- `PciIdLookup`, on a text of this size. -/
def pciIdLookup (size vendor device capacity : Nat) : PciIdRead (Bool × Bytes) :=
  lookupFrom size vendor device capacity size 0 false

end CsmVgaSelector
