/-
Payloads. A channel carries integers of 64 bits or texts, and a value fits a channel of its own
kind only.
-/
import Conduit.Numeral

namespace Conduit

/-- The kind of value that a channel carries. -/
inductive Payload
  | int
  | text
  deriving DecidableEq, Repr

/-- A value on its way through a channel. -/
inductive Value
  | int (i : Int64)
  | text (s : String)
  deriving DecidableEq, Repr

namespace Value

/-- The kind of a value. -/
def payload : Value → Payload
  | .int _ => .int
  | .text _ => .text

/-- The value of an integer that fits 64 bits. -/
def ofInt? (i : Int) : Option Value :=
  if Numeral.fitsSigned i then some (.int (Int64.ofInt i)) else none

/-- The value as plain text. -/
def plain : Value → String
  | .int i => toString i.toInt
  | .text s => s

end Value

end Conduit
