/-
What a run leaves behind: the events of the wiring, the answers of single steps, and the entries of
the log, in which both stand beside the deliveries and the ends of things.
-/
import Conduit.Panic
import Conduit.Signal
import Conduit.Wiring.Layout

namespace Conduit

/-- Which way a channel faces. -/
inductive Direction
  | input
  | output
  deriving DecidableEq, Repr

/-- The name of a direction. -/
def Direction.text : Direction → String
  | .input => "input"
  | .output => "output"

/-- What the wiring reports about its own work. -/
inductive Event
  | outputsCreated (source : String) (count : Nat)
  | inputsCreated (sink : String) (count : Nat)
  | subscribed (subscription : Nat) (channel : Nat) (cardinality : Cardinality)
  | closed (subscription : Nat)
  | draining (subscription : Nat)
  | channelDropped (direction : Direction) (closed : Nat)
  | consumerGone (channel : Nat)
  | slotsPanicked (failed total : Nat)
  | unknownSlot (connection : Nat)
  deriving DecidableEq, Repr

/-- Why a step is refused before anything happens. -/
inductive Refusal
  | badStep
  | noSuchName
  | noSuchEndpoint
  | nameInUse
  | badValue
  | notConnectable
  | noGroup
  deriving DecidableEq, Repr

/-- What a channel shows of itself. -/
structure ChannelView where
  direction : Direction
  position : Nat
  ids : List Nat
  owner : Option String
  /-- The slots and the cardinality of the signal, for an output. -/
  signal : Option (Nat × Cardinality)
  synchronized : Bool
  deriving DecidableEq, Repr

/-- What the group of a component shows of itself: for each side its number of channels and the
sum of their subscriptions. -/
structure GroupView where
  grouping : Grouping
  name : String
  inputs : Nat × Nat
  outputs : Nat × Nat
  deriving DecidableEq, Repr

/-- What a subscription shows when its kind is known: its ends, as far as they live, and the
components there. -/
structure EndsView where
  id : Nat
  connected : Bool
  publisher : Bool
  subscriber : Bool
  producer : Option String
  consumer : Option String
  deriving DecidableEq, Repr

/-- The answer of a step. -/
inductive Result
  | ok
  | flag (b : Bool)
  | count (n : Nat)
  | refused (why : Refusal)
  | alreadyConnected (cardinality : Cardinality)
  | slotsFailed (total : Nat) (messages : List String)
  | subscribed (id : Nat)
  | connection (id : Nat)
  | channel (view : ChannelView)
  | group (view : GroupView)
  | subscription (id : Nat) (connected : Bool)
  | ends (view : EndsView)
  | invalidCast
  | registry (ids : List Nat)
  | signal (slots : Nat) (cardinality : Cardinality)
  | slot (refs : Nat)
  | overlaps (n : Nat)
  | panicked (payload : Panic)
  | several (results : List Result)
  deriving Repr

/-- An entry of the log. -/
inductive Entry
  | received (name : String) (position : Nat) (value : Value)
  | did (op : Option String) (result : Result)
  | dead (name : String)
  | disconnected
  | released
  | signalDead
  | foreignClose (name : String)
  | deliver (n : Nat)
  | event (e : Event)
  deriving Repr

end Conduit
