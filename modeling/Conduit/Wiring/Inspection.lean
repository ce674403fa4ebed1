/-
Inspection: what channels, groups and subscriptions show of themselves.
-/
import Conduit.Wiring.World

namespace Conduit.World

/-- What a channel shows. -/
def channelView (w : World) (c : Channel) : ChannelView :=
  { direction := c.direction
    position := c.position
    ids := c.registry.ids
    owner := w.livingName? c.owner
    signal := c.signal?.map fun s => (s.size, s.cardinality)
    synchronized := c.isSynchronized }

/-- The sum of the subscriptions of some channels. -/
def subscriptionsOf (w : World) (channels : List ChannelId) : Nat :=
  channels.foldl (fun n ch => n + (w.registry ch).size) 0

/-- What the group of a component shows, when its channels form one. -/
def groupView? (w : World) (c : ComponentId) : Option GroupView := do
  let comp ← w.components[c]?
  let grouping ← comp.layout.grouping
  return {
    grouping, name := comp.name
    inputs := (comp.inputs.length, w.subscriptionsOf comp.inputs)
    outputs := (comp.outputs.length, w.subscriptionsOf comp.outputs) }

/-- The kind of signal behind a channel. -/
def signalKind? (c : Channel) : Option SignalKind :=
  c.signal?.map fun s => if c.counts then .counting else if s.cardinality = .oneToOne then .one else .many

/-- The ends of a subscription whose kind is known. -/
structure EndKinds where
  payload : Payload
  signal : SignalKind
  outputPosition : Nat
  inputPosition : Nat
  deriving DecidableEq, Repr

/-- Of what kind the ends of a subscription are. -/
def endKinds? (w : World) (s : SubscriptionId) : Option EndKinds := do
  let sub ← w.subscription? s
  let o ← w.channels[sub.output]?
  let i ← w.channels[sub.input]?
  return { payload := o.payload, signal := ← signalKind? o,
           outputPosition := o.position, inputPosition := i.position }

/-- The component of a channel, by its name, when both live. -/
def ownerName? (w : World) (ch : ChannelId) : Option String :=
  (w.channels[ch]?).bind fun c => if c.alive then w.livingName? c.owner else none

/-- What a subscription shows of its ends. -/
def endsView? (w : World) (s : SubscriptionId) : Option EndsView := do
  let sub ← w.subscription? s
  return {
    id := s, connected := sub.token.isSome
    publisher := w.channelAlive sub.output, subscriber := w.channelAlive sub.input
    producer := w.ownerName? sub.output, consumer := w.ownerName? sub.input }

end Conduit.World
