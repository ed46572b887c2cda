import CsmVgaSelector.Log.Logger
import Mathlib.Algebra.Ring.Nat

/-!
# The UTF-8 buffer

`UnicodeToUtf8` writes what it encodes to a buffer of three bytes for each unit and one for the terminator. A
write past the end of the buffer has no result here.
-/

namespace CsmVgaSelector

/-- `MAX_UINTN`. -/
def maxUIntN : Nat := 2 ^ 64 - 1

/-- What has been written to the buffer, whose size is `capacity`. -/
structure Utf8Buffer where
  capacity : Nat
  data : Bytes

namespace Utf8Buffer

/-- `Result[Output++]`. -/
def put (buffer : Utf8Buffer) (value : UInt8) : Option Utf8Buffer :=
  if buffer.data.length < buffer.capacity then some { buffer with data := buffer.data ++ [value] } else none

def putCodePoint (buffer : Utf8Buffer) (codePoint : Nat) : Option Utf8Buffer :=
  (utf8OfCodePoint codePoint).foldlM put buffer

/-- The loop over the text. -/
def putText (buffer : Utf8Buffer) : Text → Option Utf8Buffer
  | [] => some buffer
  | [character] =>
      buffer.putCodePoint
        (if isHighSurrogate character || isLowSurrogate character then 0xFFFD else character.toNat)
  | character :: lowSurrogate :: rest =>
      if isHighSurrogate character then
        if isLowSurrogate lowSurrogate then do
          let buffer ← buffer.putCodePoint
            (0x10000 + (character.toNat - 0xD800) <<< 10 + (lowSurrogate.toNat - 0xDC00))
          buffer.putText rest
        else do
          let buffer ← buffer.putCodePoint 0xFFFD
          buffer.putText (lowSurrogate :: rest)
      else do
        let buffer ← buffer.putCodePoint (if isLowSurrogate character then 0xFFFD else character.toNat)
        buffer.putText (lowSurrogate :: rest)

end Utf8Buffer

/-- `UnicodeToUtf8`: what is in the buffer up to the terminator, and `*Utf8Size`. -/
def unicodeToUtf8Allocated (granted : Bool) (text : Text) : Option (Except EfiStatus (Bytes × Nat)) :=
  if text.length > (maxUIntN - 1) / 3 then some (.error .outOfResources)
  else if !granted then some (.error .outOfResources)
  else do
    let buffer ← Utf8Buffer.putText { capacity := text.length * 3 + 1, data := [] } text
    let terminated ← buffer.put 0
    return .ok (terminated.data, buffer.data.length)

end CsmVgaSelector
