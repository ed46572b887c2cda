import Mathlib.Data.List.DropRight
import Mathlib.Tactic.Common

/-!
# ASCII text

Configurations are bytes. A C string is the bytes before its terminator; an array of characters is a
list that may hold a terminator, and the place past its end counts as one.
-/

namespace CsmVgaSelector

abbrev Bytes := List UInt8

def byte (character : Char) : UInt8 := character.toNat.toUInt8

/-- The characters of an ASCII string are its bytes. -/
def ascii (string : String) : Bytes := string.toUTF8.data.toList

def lineFeed : UInt8 := 0x0A

def carriageReturn : UInt8 := 0x0D

def isPrintable (character : UInt8) : Bool := 0x20 ≤ character && character ≤ 0x7E

def isSpace (character : UInt8) : Bool := character == 0x20 || character == 0x09

/-- The C string at the beginning of an array. -/
def cString (array : Bytes) : Bytes := array.takeWhile (· != 0)

def trim (text : Bytes) : Bytes := (text.dropWhile isSpace).rdropWhile isSpace

/-- The lower case of an ASCII letter. -/
def lowerCase (character : UInt8) : UInt8 :=
  if byte 'A' ≤ character ∧ character ≤ byte 'Z' then character + 32 else character

/-- The lines of a text, each with the line feed that ends it. -/
def linesOf : Bytes → List Bytes
  | [] => []
  | character :: rest =>
      if character = lineFeed then [character] :: linesOf rest
      else
        match linesOf rest with
        | [] => [[character]]
        | line :: lines => (character :: line) :: lines

/-! ### Numbers -/

def hexDigitOf (digit : Nat) : UInt8 := (ascii "0123456789ABCDEF").getD digit 0

def putHex (value digits : Nat) : Bytes :=
  (List.range digits).map fun index => hexDigitOf ((value >>> ((digits - index - 1) * 4)) % 16)

/-- The digits of a number that is not zero, the least significant first. -/
def decimalDigits : Nat → Nat → Bytes
  | 0, _ => []
  | fuel + 1, value =>
      if value = 0 then [] else UInt8.ofNat (0x30 + value % 10) :: decimalDigits fuel (value / 10)

def putDec (value : Nat) : Bytes :=
  if value = 0 then [byte '0'] else (decimalDigits 24 value).reverse

def hexDigit (character : UInt8) : Option Nat :=
  if byte '0' ≤ character ∧ character ≤ byte '9' then some (character.toNat - 0x30)
  else if byte 'a' ≤ character ∧ character ≤ byte 'f' then some (character.toNat - 0x61 + 10)
  else if byte 'A' ≤ character ∧ character ≤ byte 'F' then some (character.toNat - 0x41 + 10)
  else none

/-! ### Bounded output -/

/-- `NCV_TEXT`: what has been put, and whether something did not fit. -/
structure NcvText where
  data : Bytes
  capacity : Nat
  failed : Bool
  deriving DecidableEq

namespace NcvText

def empty (capacity : Nat) : NcvText where
  data := []
  capacity := capacity
  failed := false

/-- The last place is the terminator's. -/
def putChar (text : NcvText) (character : UInt8) : NcvText :=
  if text.data.length + 1 ≥ text.capacity then { text with failed := true }
  else { text with data := text.data ++ [character] }

def putText (text : NcvText) (source : Bytes) : NcvText := source.foldl putChar text

end NcvText

end CsmVgaSelector
