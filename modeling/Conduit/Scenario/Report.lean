/-
Reports: the answers of steps, the entries of the log and the state of the bench as documents.
-/
import Conduit.Document.Event
import Conduit.Scenario.Bench
import Conduit.Text.Record
import Conduit.Wiring.Fault

namespace Conduit

open Document (tableOf)
open Text (recordText tupleText listText)

/-! ## Texts -/

/-- The name of a subscription. -/
def subscriptionText (id : Nat) : String := "sub#" ++ toString id

/-- The typed name of a subscription. -/
def subscriptionIdText (id : Nat) : String := tupleText "SubscriptionId" [toString id]

/-- A registry, as text. -/
def registryText (ids : List Nat) : String :=
  recordText "Registry" [("subscriptions", listText (ids.map subscriptionIdText))]

namespace ChannelView

/-- The part of a channel that inputs and outputs share, as text. -/
def baseText (v : ChannelView) : String :=
  let direction := match v.direction with
    | .input => "Input"
    | .output => "Output"
  recordText "Channel" [("direction", direction), ("registry", registryText v.ids)]

/-- A channel, as text. -/
def text (v : ChannelView) : String :=
  match v.direction with
  | .input =>
    recordText "InputChannel"
      [("id", toString v.position), ("synchronized", Text.truth v.synchronized),
       ("base", v.baseText)]
  | .output => recordText "OutputChannel" [("id", toString v.position), ("base", v.baseText)]

/-- What a channel shows. -/
def toDocument (v : ChannelView) : Document :=
  let owner := Document.textOrNull v.owner
  tableOf <|
    [("direction", .text v.direction.text), ("channel_direction", .text v.direction.text),
     ("id", .nat v.position), ("subscriptions", .nat v.ids.length),
     ("ids", .list (v.ids.map .nat)), ("component", owner), ("owner", owner),
     ("weak_alive", .bool true), ("debug", .text v.text)] ++
    match v.signal with
    | some (slots, cardinality) =>
      [("slots", .nat slots), ("cardinality", .text cardinality.text)]
    | none => [("synchronized", .bool v.synchronized)]

end ChannelView

namespace GroupView

/-- One side of a group. -/
def sideDocument (title name count : String) (side : Nat × Nat) : Document :=
  tableOf
    [("name", .text name), (count, .nat side.1), ("subscriptions", .nat side.2),
     ("debug", .text (recordText title [("name", Text.quoted name)]))]

/-- What a group shows. -/
def toDocument (v : GroupView) : Document :=
  let sink := sideDocument "Sink" v.name "inputs" v.inputs
  let source := sideDocument "Source" v.name "outputs" v.outputs
  match v.grouping with
  | .source => source
  | .sink => sink
  | .flow =>
    tableOf
      [("name", .text v.name), ("sink", sink), ("source", source),
       ("debug", .text (recordText "Flow" [("name", Text.quoted v.name)]))]

end GroupView

/-- The text that a subscription of a kind, or a handle of any kind, shows. -/
def connectedText (title : String) (id : Nat) (connected : Bool) : String :=
  recordText title [("id", subscriptionIdText id), ("connected", Text.truth connected)]

/-- What a subscription shows of its ends. -/
def EndsView.toDocument (v : EndsView) : Document :=
  tableOf
    [("publisher", .bool v.publisher), ("subscriber", .bool v.subscriber),
     ("producer", Document.textOrNull v.producer), ("consumer", Document.textOrNull v.consumer),
     ("debug", .text (connectedText "Subscription" v.id v.connected))]

/-! ## Answers -/

/-- The name of a refusal. -/
def Refusal.name : Refusal → String
  | .badStep => "BadStep"
  | .noSuchName => "NoSuchName"
  | .noSuchEndpoint => "NoSuchPort"
  | .nameInUse => "NameInUse"
  | .badValue => "BadValue"
  | .notConnectable => "NotConnectable"
  | .noGroup => "NoGroup"

mutual

/-- The answer of a step. -/
def Result.toDocument : Result → Document
  | .ok => .text "ok"
  | .flag b => .bool b
  | .count n => .nat n
  | .refused why => .errorOf why.name
  | .alreadyConnected c =>
    Fault.answer "AlreadyConnected" (ChannelFault.alreadyConnected c.text)
  | .slotsFailed total messages =>
    let fault : PublishFault := { failed := messages.length, total, messages }
    tableOf
      [("error", .text "SlotsFailed"), ("failed", .nat fault.failed), ("total", .nat total),
       ("messages", .list (messages.map .text)), ("message", .text (Fault.text fault))]
  | .subscribed id => tableOf [("id", .nat id), ("connected", .bool true)]
  | .connection id =>
    tableOf [("id", .nat id), ("debug", .text (recordText "SlotConnection" [("id", toString id)]))]
  | .channel view => view.toDocument
  | .group view => view.toDocument
  | .subscription id connected =>
    tableOf
      [("id", .nat id), ("connected", .bool connected), ("display", .text (subscriptionText id)),
       ("debug", .text (connectedText "SubscriptionHandle" id connected))]
  | .ends view => view.toDocument
  | .invalidCast => .errorOf "InvalidCast"
  | .registry ids =>
    tableOf [("len", .nat ids.length), ("empty", .bool ids.isEmpty),
      ("debug", .text (registryText ids))]
  | .signal slots cardinality =>
    tableOf <|
      [("slots", .nat slots), ("cardinality", .text cardinality.text)] ++
      match cardinality with
      | .oneToOne => [("connected", .bool (slots != 0))]
      | .oneToMany => []
  | .slot refs => .text (recordText "Slot" [("refs", toString refs)])
  | .overlaps n => tableOf [("overlaps", .nat n)]
  | .panicked (.text s) => tableOf [("panic", .text s)]
  | .panicked .other => tableOf [("panic", .null)]
  | .several results => .list (Result.documents results)

/-- The answers of several steps. -/
def Result.documents : List Result → List Document
  | [] => []
  | r :: rest => r.toDocument :: Result.documents rest

end

/-! ## The log -/

/-- The level, the message and the fields of an event. -/
def Event.parts : Event → Level × String × List (String × Document)
  | .outputsCreated source count =>
    (.debug, "Output channels created", [("source", .text source), ("outputs", .nat count)])
  | .inputsCreated sink count =>
    (.debug, "Input channels created", [("sink", .text sink), ("inputs", .nat count)])
  | .subscribed id channel cardinality =>
    (.debug, "Subscribed",
      [("subscription", .text (subscriptionText id)), ("channel_id", .nat channel),
       ("cardinality", .text cardinality.text)])
  | .closed id => (.debug, "Subscription closed", [("subscription", .text (subscriptionText id))])
  | .draining id =>
    (.trace, "Closing drained subscription", [("subscription", .text (subscriptionText id))])
  | .channelDropped direction count =>
    (.debug, "Channel dropped, subscriptions closed",
      [("direction", .text direction.text), ("closed", .nat count)])
  | .consumerGone channel => (.trace, "Consumer gone, data dropped", [("channel_id", .nat channel)])
  | .slotsPanicked failed total =>
    (.warn, "Slots panicked during publish", [("failed", .nat failed), ("total", .nat total)])
  | .unknownSlot connection =>
    (.warn, "Disconnect of unknown slot", [("connection", .nat connection)])

/-- A value as it was delivered. -/
def Value.toDocument : Value → Document
  | .int i => .int i.toInt
  | .text s => .text s

/-- An entry of the log. -/
def Entry.toDocument : Entry → Document
  | .received name position value =>
    .list [.text "recv", .text name, .nat position, value.toDocument]
  | .did op result => .list [.text "did", Document.textOrNull op, result.toDocument]
  | .dead name => .list [.text "dead", .text name]
  | .disconnected => .list [.text "disconnect"]
  | .released => .list [.text "released"]
  | .signalDead => .list [.text "signal_dead"]
  | .foreignClose name => .list [.text "fake_close", .text name]
  | .deliver n => .list [.text "deliver", .nat n]
  | .event e => let (level, message, fields) := e.parts; eventDocument level message fields

/-- Whether an entry is an event of the wiring. -/
def Entry.isEvent : Entry → Bool
  | .event _ => true
  | _ => false

/-! ## The state -/

namespace Scenario.Bench

/-- What a state shows of a channel: its subscriptions and, of an output, the number of slots. -/
def portState (b : Bench) (ch : ChannelId) : Document :=
  let ids := Document.list ((b.world.registry ch).ids.map .nat)
  match (b.world.channels[ch]?).bind Channel.signal? with
  | some s => .list [ids, .nat s.size]
  | none => .list [ids]

/-- The endpoints of a component that has a name. -/
def endpointsOf (b : Bench) (name : String) (c : ComponentId) : List (String × Document) :=
  match b.world.components[c]? with
  | none => []
  | some comp =>
    comp.inputs.mapIdx (fun i ch => (s!"{name}.i{i}", b.portState ch)) ++
    comp.outputs.mapIdx fun i ch => (s!"{name}.o{i}", b.portState ch)

/-- The state of the bench; parts that are empty are left out. -/
def toDocument (b : Bench) : Document :=
  let endpoints := (b.components.map fun (name, c) => b.endpointsOf name c).flatten ++
    b.channels.map fun (name, ch) => (name, b.portState ch)
  let subs := b.handles.map fun (name, h) => (name, Document.bool (b.world.handleConnected h))
  let regs := b.registries.map fun (name, r) => (name, Document.list (r.ids.map .nat))
  let sigs := b.signals.map fun (name, g) =>
    (name, Document.nat (((b.signal? g).map (·.size)).getD 0))
  let parts := [("ports", endpoints), ("subs", subs), ("regs", regs), ("sigs", sigs)]
  tableOf ((parts.filter fun (_, entries) => !entries.isEmpty).map fun (k, entries) =>
    (k, tableOf entries))

end Scenario.Bench

end Conduit
