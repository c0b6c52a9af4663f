import DurableStore.Bytes

/-!
# Wire values

The six kinds of value that the wire format carries, with the absent bulk
string and the absent array as constructors of their own.  Texts are kept as
octets, so that a value here stands for one whose texts are what octets are
read as: every value that has been decoded, and every value that the server
makes, is such a one.  The module `Wire.HostValue` has the values with other
texts that an application can build.  An application may also hand the encoder
an object that has no wire form; such a value is `foreign`, and no decoder ever
produces one.

Main results:

- `Value.beq_iff` and the `DecidableEq` instance: equality of values is
  decidable.
-/

namespace DurableStore

/-- An object of the host application that has no wire form. -/
inductive Foreign
  | none
  | flag (value : Bool)
  | number (value : Int)
  | text (value : String)
  deriving DecidableEq, Repr

/-- A value of the wire format, or a foreign object in the place of one. -/
inductive Value
  | simple (text : Bytes)
  | error (text : Bytes)
  | integer (number : Int)
  | bulk (payload : Bytes)
  | absentBulk
  | array (items : List Value)
  | absentArray
  | null
  | foreign (object : Foreign)
  deriving Repr

/-- The kinds of value that messages name. -/
inductive ValueKind
  | simple
  | error
  | integer
  | bulk
  | array
  | null
  | foreign
  deriving DecidableEq, Repr

namespace ValueKind

/-- The name of a kind of value in messages. -/
def name : ValueKind → String
  | .simple => "SimpleString"
  | .error => "ErrorMessage"
  | .integer => "Integer"
  | .bulk => "BulkString"
  | .array => "Array"
  | .null => "Null"
  | .foreign => "object"

end ValueKind

namespace Value

/-- The kind of a value; an absent string or array has the kind it would have
if it were present. -/
def kind : Value → ValueKind
  | .simple _ => .simple
  | .error _ => .error
  | .integer _ => .integer
  | .bulk _ | .absentBulk => .bulk
  | .array _ | .absentArray => .array
  | .null => .null
  | .foreign _ => .foreign

/-- The payload of a bulk string that is present. -/
def payload? : Value → Option Bytes
  | .bulk payload => some payload
  | _ => none

/-- Whether a value is an error line. -/
def isError : Value → Bool
  | .error _ => true
  | _ => false

/-! ## Equality -/

mutual

/-- Whether two values are the same. -/
def beq : Value → Value → Bool
  | .simple s, .simple t => s == t
  | .error s, .error t => s == t
  | .integer m, .integer n => m == n
  | .bulk p, .bulk q => p == q
  | .absentBulk, .absentBulk => true
  | .array items, .array items' => beqItems items items'
  | .absentArray, .absentArray => true
  | .null, .null => true
  | .foreign o, .foreign o' => o == o'
  | _, _ => false

/-- Whether two lists of values are the same. -/
def beqItems : List Value → List Value → Bool
  | [], [] => true
  | v :: vs, w :: ws => beq v w && beqItems vs ws
  | _, _ => false

end

mutual

theorem beq_iff : ∀ v w : Value, beq v w = true ↔ v = w
  | .array items, .array items' => by
      simp only [beq, Value.array.injEq]
      exact beqItems_iff items items'
  | .array _, .simple _ | .array _, .error _ | .array _, .integer _ | .array _, .bulk _
  | .array _, .absentBulk | .array _, .absentArray | .array _, .null | .array _, .foreign _ => by
      simp [beq]
  | .simple _, w | .error _, w | .integer _, w | .bulk _, w | .absentBulk, w
  | .absentArray, w | .null, w | .foreign _, w => by
      cases w <;> simp [beq]

theorem beqItems_iff : ∀ vs ws : List Value, beqItems vs ws = true ↔ vs = ws
  | [], [] => by simp [beqItems]
  | [], _ :: _ => by simp [beqItems]
  | _ :: _, [] => by simp [beqItems]
  | v :: vs, w :: ws => by
      simp only [beqItems, Bool.and_eq_true, List.cons.injEq]
      rw [beq_iff v w, beqItems_iff vs ws]

end

instance : DecidableEq Value := fun v w =>
  decidable_of_iff (beq v w = true) (beq_iff v w)

end Value

end DurableStore
