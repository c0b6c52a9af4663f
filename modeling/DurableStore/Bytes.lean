/-!
# Octet strings

Everything that travels on a connection or stands in the log is a string of
octets.  This module fixes the representation, the line terminator of the wire
format, and the cutting of a long string into the pieces that single reads
deliver.
-/

namespace DurableStore

/-- A string of octets. -/
abbrev Bytes := List UInt8

namespace Bytes

/-- The line terminator of the wire format: carriage return, line feed. -/
def crlf : Bytes := [0x0D, 0x0A]

/-- The octets of a text in UTF-8. -/
def ofString (s : String) : Bytes :=
  s.toList.flatMap String.utf8EncodeChar

/-- Concatenate the members of a list, putting `separator` between neighbours. -/
def join (separator : Bytes) : List Bytes → Bytes
  | [] => []
  | [piece] => piece
  | piece :: rest => piece ++ separator ++ join separator rest

/-- Whether a string has at least `n` octets, looking at no more than `n` of them. -/
def hasLength : Nat → Bytes → Bool
  | 0, _ => true
  | _ + 1, [] => false
  | n + 1, _ :: rest => hasLength n rest

/-- The pieces that at most `fuel` reads of `size` octets deliver. -/
def chunksWithin (size : Nat) : Nat → Bytes → List Bytes
  | 0, _ => []
  | _ + 1, [] => []
  | fuel + 1, bytes => bytes.take size :: chunksWithin size fuel (bytes.drop size)

/-- Cut a string into the pieces that reads of `size` octets deliver; every
piece is nonempty if `size` is, and only the last may be shorter than `size`. -/
def chunks (size : Nat) (bytes : Bytes) : List Bytes :=
  chunksWithin size bytes.length bytes

/-! ## Elementary facts -/

theorem hasLength_iff (n : Nat) (bytes : Bytes) :
    hasLength n bytes = true ↔ n ≤ bytes.length := by
  induction n generalizing bytes with
  | zero => simp [hasLength]
  | succ n ih => cases bytes <;> simp [hasLength, ih]

end Bytes

end DurableStore
