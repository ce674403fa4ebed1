/-
The wiring: components with their channels, and the subscriptions between them. Everything is
listed in the order of creation and found by its place in the list; nothing is ever removed from
the lists, it only ends. What stands outside of the wiring and holds a part of it alive (names,
registries of their own, deliveries in progress) is asked for by the operations that need it.
-/
import Conduit.Registry
import Conduit.Wiring.Transcript

namespace Conduit

abbrev ComponentId := Nat
abbrev ChannelId := Nat
/-- Subscriptions are numbered from 1 in the order of their creation. -/
abbrev SubscriptionId := Nat
abbrev CallbackId := Nat
abbrev SignalId := Nat

/-- What a signal calls: the handler of a component for one of its inputs, as long as the component
lives, or a callback. -/
inductive Slot
  | handler (component : ComponentId) (position : Nat)
  | callback (c : CallbackId)
  deriving DecidableEq, Repr

/-- A handle of a subscription: the subscription itself, or a foreign object that shows the number
of one. -/
inductive Handle
  | own (s : SubscriptionId)
  | foreign (f : Nat)
  deriving DecidableEq, Repr

/-- The side-dependent part of a channel. -/
inductive Role
  | input (synchronized : Bool)
  | output (signal : Signal Slot) (counting : Bool)
  deriving DecidableEq, Repr

/-- A channel of a component. -/
structure Channel where
  owner : ComponentId
  position : Nat
  payload : Payload
  role : Role
  registry : Registry Handle := .empty
  alive : Bool := true

/-- A component; it holds each of its channels while it lives. -/
structure Component where
  name : String
  layout : Layout
  inputs : List ChannelId
  outputs : List ChannelId
  alive : Bool := true

/-- A subscription between an output and an input. It is connected as long as it has the token of
its place in the output's signal. -/
structure Subscription where
  output : ChannelId
  input : ChannelId
  token : Option Nat
  deriving DecidableEq, Repr

/-- A handle made elsewhere, which shows a subscription's number and is in no channel. -/
structure ForeignHandle where
  id : SubscriptionId
  name : String
  connected : Bool := true
  deriving DecidableEq, Repr

/-- A part of the wiring, or beside it, that can be held alive. -/
inductive Ref
  | component (c : ComponentId)
  | channel (ch : ChannelId)
  | handle (h : Handle)
  | signal (g : SignalId)
  | callback (c : CallbackId)
  deriving DecidableEq, Repr

/-- What is done about the connections behind subscriptions. -/
inductive Deed
  /-- A subscription got a place in the signal of an output. -/
  | connected (s : SubscriptionId) (output : ChannelId) (place : Nat)
  /-- A subscription told the signal of its output to disconnect its place, which was there or not. -/
  | disconnected (s : SubscriptionId) (found : Bool)
  /-- The token of a subscription's place was destroyed. -/
  | released (s : SubscriptionId)
  /-- A place was taken out of the signal of an output, but not by a subscription. -/
  | removed (output : ChannelId) (place : Nat)
  /-- The last holder of a channel let it go. -/
  | ended (ch : ChannelId)
  deriving DecidableEq, Repr

/-- The wiring, its log and its ledger; in both the newest entry comes first. The ledger is only
ever added to, and nothing is decided by it. -/
structure World where
  components : List Component := []
  channels : List Channel := []
  subscriptions : List Subscription := []
  foreigns : List ForeignHandle := []
  log : List Entry := []
  ledger : List Deed := []

namespace Channel

/-- Which way the channel faces. -/
def direction (c : Channel) : Direction :=
  match c.role with
  | .input _ => .input
  | .output _ _ => .output

/-- The signal of an output. -/
def signal? (c : Channel) : Option (Signal Slot) :=
  match c.role with
  | .input _ => none
  | .output s _ => some s

/-- Whether the channel's signal reports what happens to its connections. -/
def counts (c : Channel) : Bool :=
  match c.role with
  | .input _ => false
  | .output _ counting => counting

/-- Whether the handler of an input is run by one caller at a time. -/
def isSynchronized (c : Channel) : Bool :=
  match c.role with
  | .input b => b
  | .output _ _ => false

/-- Puts another state of the signal in place. -/
def setSignal (c : Channel) (s : Signal Slot) : Channel :=
  match c.role with
  | .input _ => c
  | .output _ counting => { c with role := .output s counting }

/-- The slot under which an input is connected to a signal. -/
def slot (c : Channel) : Slot := .handler c.owner c.position

end Channel

namespace World

/-- Adds an entry to the log. -/
def note (w : World) (e : Entry) : World := { w with log := e :: w.log }

/-- Adds a deed to the ledger. -/
def record (w : World) (d : Deed) : World := { w with ledger := d :: w.ledger }

/-- Changes one channel. -/
def modifyChannel (w : World) (ch : ChannelId) (f : Channel → Channel) : World :=
  { w with channels := w.channels.modify ch f }

/-- Whether the component lives. -/
def componentAlive (w : World) (c : ComponentId) : Bool := (w.components[c]?).any (·.alive)

/-- Whether the channel lives. -/
def channelAlive (w : World) (ch : ChannelId) : Bool := (w.channels[ch]?).any (·.alive)

/-- The name of the component, while it lives. -/
def livingName? (w : World) (c : ComponentId) : Option String :=
  (w.components[c]?).bind fun comp => if comp.alive then some comp.name else none

/-- The subscription of a number. -/
def subscription? (w : World) (s : SubscriptionId) : Option Subscription :=
  if s = 0 then none else w.subscriptions[s - 1]?

/-- Whether the subscription is connected. -/
def isConnected (w : World) (s : SubscriptionId) : Bool :=
  (w.subscription? s).any (·.token.isSome)

/-- The number that a handle shows. -/
def handleId (w : World) : Handle → SubscriptionId
  | .own s => s
  | .foreign f => ((w.foreigns[f]?).map (·.id)).getD 0

/-- Whether a handle says that it is connected. -/
def handleConnected (w : World) : Handle → Bool
  | .own s => w.isConnected s
  | .foreign f => (w.foreigns[f]?).any (·.connected)

/-- The signal of an output. -/
def signal? (w : World) (ch : ChannelId) : Option (Signal Slot) :=
  (w.channels[ch]?).bind Channel.signal?

/-- Whether a place of this number is connected at an output. -/
def hasPlace (w : World) (output : ChannelId) (place : Nat) : Bool :=
  (w.signal? output).any (·.has place)

/-- The registry of a channel. -/
def registry (w : World) (ch : ChannelId) : Registry Handle :=
  ((w.channels[ch]?).map (·.registry)).getD .empty

/-- Puts another registry in place. -/
def setRegistry (w : World) (ch : ChannelId) (r : Registry Handle) : World :=
  w.modifyChannel ch fun c => { c with registry := r }

/-- Puts another state of an output's signal in place. -/
def setSignal (w : World) (ch : ChannelId) (s : Signal Slot) : World :=
  w.modifyChannel ch (·.setSignal s)

/-- Puts a handle into a channel's registry under the number that it shows. -/
def register (w : World) (ch : ChannelId) (h : Handle) : World :=
  w.setRegistry ch ((w.registry ch).insert (w.handleId h) h)

/-- Takes a number out of a channel's registry. -/
def deregister (w : World) (ch : ChannelId) (s : SubscriptionId) : World :=
  w.setRegistry ch ((w.registry ch).erase s)

/-- Whether a living channel lists this very handle. -/
def isRegistered (w : World) (h : Handle) : Bool :=
  w.channels.any fun c => c.alive && c.registry.handles.contains h

/-- Lists another foreign handle. -/
def adopt (w : World) (g : ForeignHandle) : World := { w with foreigns := w.foreigns ++ [g] }

/-- The signal that an output of a kind begins with. -/
def newSignal (kind : SignalKind) : Signal Slot :=
  { cardinality := if kind = .one then .oneToOne else .oneToMany }

/-- The channels that a new component gets. -/
def newChannels (owner : ComponentId) (layout : Layout) : List Channel :=
  let ins : List Channel := layout.inputs.mapIdx fun i payload =>
    { owner, position := i, payload, role := .input layout.synchronized }
  let outs : List Channel := layout.outputs.mapIdx fun i (payload, kind) =>
    { owner, position := i, payload, role := .output (newSignal kind) (kind == .counting) }
  ins ++ outs

/-- The events that the groups of a new component cause. -/
def creationEvents (name : String) (layout : Layout) : List Event :=
  match layout.grouping with
  | none => []
  | some .source => [.outputsCreated name layout.outputs.length]
  | some .sink => [.inputsCreated name layout.inputs.length]
  | some .flow => [.inputsCreated name layout.inputs.length, .outputsCreated name layout.outputs.length]

/-- Creates a component with its channels. -/
def create (w : World) (name : String) (layout : Layout) : ComponentId × World :=
  let id := w.components.length
  let first := w.channels.length
  let ins := layout.inputs.length
  let w := (creationEvents name layout).foldl (fun w e => w.note (.event e)) w
  (id, { w with
    components := w.components ++ [{
      name, layout
      inputs := (List.range ins).map (first + ·)
      outputs := (List.range layout.outputs.length).map (first + ins + ·) }]
    channels := w.channels ++ newChannels id layout })

/-- Lists another subscription. -/
def enroll (w : World) (sub : Subscription) : World := { w with subscriptions := w.subscriptions ++ [sub] }

/-- Subscribes an input to an output. The slot is connected first, and a refusal of the signal
leaves no trace. -/
def subscribe? (w : World) (output input : ChannelId) : Option (SubscriptionId × World) := do
  let o ← w.channels[output]?
  let i ← w.channels[input]?
  let signal ← o.signal?
  let (token, signal) ← signal.connect? i.slot
  let id := w.subscriptions.length + 1
  let w := w.setSignal output signal
  let w := w.enroll { output, input, token := some token }
  let w := w.record (.connected id output token)
  let w := (w.register output (.own id)).register input (.own id)
  return (id, w.note (.event (.subscribed id o.position signal.cardinality)))

end World

end Conduit
