/-
Levels of importance of what is reported, from the least to the greatest.
-/
namespace Conduit

/-- A level of importance. -/
inductive Level
  | trace
  | debug
  | info
  | warn
  | error
  deriving DecidableEq, Repr

namespace Level

/-- The name of a level, in capitals. -/
def name : Level → String
  | .trace => "TRACE"
  | .debug => "DEBUG"
  | .info => "INFO"
  | .warn => "WARN"
  | .error => "ERROR"

/-- The levels, from the least important. -/
def all : List Level := [.trace, .debug, .info, .warn, .error]

/-- The place of a level in the order of importance. -/
def rank : Level → Nat
  | .trace => 0
  | .debug => 1
  | .info => 2
  | .warn => 3
  | .error => 4

end Level

end Conduit
