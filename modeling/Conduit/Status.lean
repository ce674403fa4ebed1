/-
Status codes: the category of a failure, as a number. The thousands tell the area: success, general
failures, wiring, delivery, configuration, and the periodic notifier.
-/
namespace Conduit

/-- The category of a failure. -/
inductive Status
  | success
  | unknown
  | unexpected
  | internal
  | invalidCast
  | alreadyConnected
  | slotFailed
  | invalidConfig
  | io
  | loggingInitFailed
  | invalidInterval
  | workerSpawnFailed
  deriving DecidableEq, Repr

namespace Status

/-- All categories, in the order of their numbers. -/
def all : List Status :=
  [.success, .unknown, .unexpected, .internal, .invalidCast, .alreadyConnected, .slotFailed,
   .invalidConfig, .io, .loggingInitFailed, .invalidInterval, .workerSpawnFailed]

/-- The number of a category. -/
def code : Status → Nat
  | .success => 0
  | .unknown => 1000
  | .unexpected => 1002
  | .internal => 1003
  | .invalidCast => 2000
  | .alreadyConnected => 2001
  | .slotFailed => 3000
  | .invalidConfig => 5000
  | .io => 5001
  | .loggingInitFailed => 5002
  | .invalidInterval => 9000
  | .workerSpawnFailed => 9001

/-- The name of a category. -/
def name : Status → String
  | .success => "Success"
  | .unknown => "Unknown"
  | .unexpected => "Unexpected"
  | .internal => "Internal"
  | .invalidCast => "InvalidCast"
  | .alreadyConnected => "AlreadyConnected"
  | .slotFailed => "SlotFailed"
  | .invalidConfig => "InvalidConfig"
  | .io => "Io"
  | .loggingInitFailed => "LoggingInitFailed"
  | .invalidInterval => "InvalidInterval"
  | .workerSpawnFailed => "WorkerSpawnFailed"

/-- A category as text: its name and its number. -/
def text (s : Status) : String := s!"{s.name} ({s.code})"

/-- The category of a number. -/
def ofCode? (n : Nat) : Option Status := all.find? (·.code == n)

/-- The text that says that a number has no category. -/
def noSuchCodeText (n : Nat) : String :=
  s!"No discriminant in enum `StatusCode` matches the value `{n}`"

/-- Whether the details of such a failure are kept from those outside. -/
def isInternal : Status → Bool
  | .unknown | .unexpected | .internal => true
  | _ => false

end Status

end Conduit
