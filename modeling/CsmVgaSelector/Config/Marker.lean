import CsmVgaSelector.Config.Text
import Mathlib.Algebra.Ring.Nat

/-!
# The menu marker's settings
-/

namespace CsmVgaSelector

/-- `Seen` has one bit for each key. -/
structure MarkerConfig where
  seen : Nat
  enabled : Nat
  partition : Nat
  signature : Nat
  start : Nat
  sectors : Nat
  profile : Bytes
  path : Bytes
  header : Bytes
  deriving DecidableEq, Repr

def MarkerConfig.zero : MarkerConfig where
  seen := 0
  enabled := 0
  partition := 0
  signature := 0
  start := 0
  sectors := 0
  profile := []
  path := []
  header := []

def markerDigits (base maximum : Nat) : Nat → Bytes → Option Nat
  | number, [] => some number
  | number, character :: rest =>
      match hexDigit character with
      | none => none
      | some digit =>
          if digit ≥ base ∨ digit > maximum ∨ number > (maximum - digit) / base then none
          else markerDigits base maximum ((number * base + digit) % 2 ^ 64) rest

def markerParseNumber (text : Bytes) (maximum : Nat) : Option Nat :=
  match text with
  | [] => none
  | first :: second :: rest =>
      if first = byte '0' ∧ (second = byte 'x' ∨ second = byte 'X') then
        if rest = [] then none else markerDigits 16 maximum 0 rest
      else markerDigits 10 maximum 0 text
  | _ => markerDigits 10 maximum 0 text

def markerKeys : List Bytes :=
  [ascii "Enabled", ascii "PartitionNumber", ascii "DiskSignature", ascii "PartitionStart",
    ascii "PartitionSectors", ascii "Profile", ascii "Path", ascii "Header"]

def isProfileCharacter (character : UInt8) : Bool :=
  byte 'A' ≤ character && character ≤ byte 'Z' || byte '0' ≤ character && character ≤ byte '9' ||
    character == byte '_'

/-- Printable, without blanks, slashes, colons and two dots in a row. -/
def isMarkerPath : Bytes → Bool
  | [] => true
  | character :: rest =>
      33 ≤ character && character ≤ 126 && character != byte '/' && character != byte ':' &&
        !(character == byte '.' && rest.head? == some (byte '.')) && isMarkerPath rest

def maxUInt32 : Nat := 2 ^ 32 - 1

def maxUInt64 : Nat := 2 ^ 64 - 1

def markerConfigSetValue (config : MarkerConfig) (key value : Bytes) : Option MarkerConfig :=
  match markerKeys.findIdx? (· == key) with
  | none => none
  | some index =>
      if config.seen.testBit index then none
      else
        let config := { config with seen := config.seen ||| 1 <<< index }
        match index with
        | 0 =>
            if value = ascii "true" then some { config with enabled := 1 }
            else if value = ascii "false" then some { config with enabled := 0 }
            else none
        | 1 => (markerParseNumber value maxUInt32).map fun number =>
            { config with partition := number }
        | 2 => (markerParseNumber value maxUInt32).map fun number =>
            { config with signature := number }
        | 3 => (markerParseNumber value maxUInt64).map fun number => { config with start := number }
        | 4 => (markerParseNumber value maxUInt64).map fun number =>
            { config with sectors := number }
        | 5 =>
            if value = [] ∨ 32 < value.length ∨ !value.all isProfileCharacter then none
            else some { config with profile := value }
        | 6 =>
            if value.head? ≠ some (byte '\\') ∨ value.length < 2 ∨ 127 < value.length ∨
                !isMarkerPath value then none
            else some { config with path := value }
        | _ =>
            if value = [] ∨ 64 < value.length ∨ !value.all isPrintable then none
            else some { config with header := value }

def markerConfigIsValid (config : MarkerConfig) : Bool :=
  if config.seen = 0 then true
  else if !config.seen.testBit 0 then false
  else if config.enabled = 0 then true
  else
    decide (config.seen &&& 127 = 127 ∧ config.partition ≠ 0 ∧ config.signature ≠ 0 ∧
      config.start ≠ 0 ∧ config.sectors ≠ 0 ∧ config.start ≤ maxUInt64 - config.sectors)

end CsmVgaSelector
