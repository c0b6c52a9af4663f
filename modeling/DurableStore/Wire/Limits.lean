/-!
# Limits on wire values

A decoder refuses values beyond the limits it was given, so that a peer cannot
make it hold an unbounded amount of data.
-/

namespace DurableStore

/-- The largest values that a decoder accepts. -/
structure Limits where
  /-- The longest payload of a bulk string. -/
  bulk : Nat
  /-- The most items of one array. -/
  array : Nat
  /-- The longest text of a status or error line. -/
  line : Nat
  /-- The deepest nesting of arrays. -/
  depth : Nat
  deriving DecidableEq, Repr

namespace Limits

/-- The limits that hold unless others are asked for. -/
def standard : Limits where
  bulk := 512 * 1024 * 1024
  array := 1024 * 1024
  line := 64 * 1024
  depth := 128

end Limits

end DurableStore
