/-
Layouts: which channels a component has. The channel on position `n` has identity `n`. A component
that is a source, a sink or a flow has its channels in a named group.
-/
import Conduit.Wiring.Value

namespace Conduit

/-- The signal behind an output: of the two bundled kinds, or the one-to-many signal that reports
what happens to its connections. -/
inductive SignalKind
  | many
  | one
  | counting
  deriving DecidableEq, Repr

/-- The group that a component's channels form. -/
inductive Grouping
  | source
  | sink
  | flow
  deriving DecidableEq, Repr

/-- The channels of a component. -/
structure Layout where
  inputs : List Payload := []
  outputs : List (Payload × SignalKind) := []
  grouping : Option Grouping := none
  synchronized : Bool := false
  deriving DecidableEq, Repr

namespace Layout

/-- A component that only publishes. -/
def source (outputs : List (Payload × SignalKind)) : Layout := { outputs, grouping := some .source }

/-- A component that only consumes. -/
def sink (inputs : List Payload) : Layout := { inputs, grouping := some .sink }

/-- A component that consumes and publishes. -/
def flow (inputs : List Payload) (outputs : List (Payload × SignalKind)) : Layout :=
  { inputs, outputs, grouping := some .flow }

/-- The layouts that have a name. -/
def named : List (String × Layout) :=
  [("src1", source [(.int, .many)]),
   ("src2", source [(.int, .many), (.text, .many)]),
   ("src3", source [(.int, .many), (.int, .many), (.text, .many)]),
   ("src4", source [(.int, .many), (.int, .many), (.int, .many), (.int, .many)]),
   ("one1", source [(.int, .one)]),
   ("cnt1", source [(.int, .counting)]),
   ("mix2", source [(.int, .many), (.int, .one)]),
   ("sink1", sink [.int]),
   ("sink2", sink [.int, .text]),
   ("sink3", sink [.int, .int, .text]),
   ("sink4", sink [.int, .int, .int, .int]),
   ("flow11", flow [.int] [(.int, .many)]),
   ("flow12", flow [.int] [(.int, .many), (.int, .one)]),
   ("flow22", flow [.int, .text] [(.int, .many), (.text, .many)]),
   ("sync1", { inputs := [.int], synchronized := true }),
   ("lock2", { inputs := [.int, .int], synchronized := true })]

/-- The layout of a name. -/
def ofName? (name : String) : Option Layout := (named.find? (·.1 = name)).map (·.2)

end Layout

end Conduit
