/-
The bench: a wiring together with everything that stands beside it. Tables of names hold
components, channels, subscription handles, registries of their own, signals, callbacks and
connections; each table is a name space of its own, and an entry keeps alive what it names.
-/
import Conduit.Numeral
import Conduit.Scenario.Script
import Conduit.Wiring.Teardown

namespace Conduit.Scenario

/-! ## Tables of names -/

/-- A table of names, in the order of the names. -/
abbrev Names (α : Type) := List (String × α)

namespace Names

variable {α : Type}

/-- What a name stands for. -/
def find? (t : Names α) (name : String) : Option α := (List.find? (·.1 = name) t).map (·.2)

/-- Whether a name is in use. -/
def uses (t : Names α) (name : String) : Bool := t.any (·.1 == name)

/-- Enters a name, at its place in the order; an entry of that name is replaced. -/
def enter (name : String) (a : α) : Names α → Names α
  | [] => [(name, a)]
  | (n, b) :: rest =>
    if name < n then (name, a) :: (n, b) :: rest
    else if name = n then (name, a) :: rest
    else (n, b) :: enter name a rest

/-- Removes a name. -/
def strike (t : Names α) (name : String) : Names α := t.filter (·.1 != name)

end Names

/-! ## The bench -/

/-- A callback: it reports under its name and acts by its rules. -/
structure Callback where
  name : String
  rules : Rules

/-- A wiring, the tables of names, and what the numbers in them refer to. Signals, callbacks and
the rules of components are found by their place in a list. -/
structure Bench where
  world : World := {}
  components : Names ComponentId := []
  channels : Names ChannelId := []
  handles : Names Handle := []
  registries : Names (Registry Handle) := []
  signals : Names SignalId := []
  callbacks : Names CallbackId := []
  /-- Connections to signals, each with the number of its place. -/
  connections : Names Nat := []
  signalStates : List (Signal Slot) := []
  callbackStates : List Callback := []
  rules : List Rules := []

/-- A channel that a step names, and what the step holds of it: the channel itself, which it lets
go first, and the component through which it was named. -/
structure Endpoint where
  channel : ChannelId
  holds : List Ref

/-- The part of a name before its last dot, and the part after it. -/
def splitAtLastDot (name : String) : Option (String × List Char) :=
  let back := name.toList.reverse
  match back.dropWhile (· != '.') with
  | [] => none
  | _ :: front => some (String.ofList front.reverse, (back.takeWhile (· != '.')).reverse)

namespace Bench

/-- Whether anything beside the wiring's own registries and components holds a part alive: a name,
a registry with a name, or whatever else `pins` tells of. -/
def keeps (b : Bench) (pins : Ref → Bool) (r : Ref) : Bool :=
  pins r ||
    match r with
    | .component c => b.components.any (·.2 == c)
    | .channel ch => b.channels.any (·.2 == ch)
    | .handle h =>
      b.handles.any (·.2 == h) || b.registries.any fun (_, reg) => reg.handles.contains h
    | .signal g => b.signals.any (·.2 == g)
    | .callback c => b.callbacks.any (·.2 == c)

/-- Looks after a part that has just been let go. -/
def settle (b : Bench) (pins : Ref → Bool) (r : Ref) : Bench :=
  { b with world := b.world.settle (b.keeps pins) r }

/-- Adds an entry to the log. -/
def note (b : Bench) (e : Entry) : Bench := { b with world := b.world.note e }

/-- The state of a signal. -/
def signal? (b : Bench) (g : SignalId) : Option (Signal Slot) := b.signalStates[g]?

/-- Puts another state of a signal in place. -/
def setSignal (b : Bench) (g : SignalId) (s : Signal Slot) : Bench :=
  { b with signalStates := b.signalStates.set g s }

/-! ## Looking things up -/

/-- A field that has to be there. -/
def field (f : Field) : Except Refusal String :=
  match f with
  | some s => .ok s
  | none => .error .badStep

/-- What the name in a field stands for. -/
def lookup (t : Names α) (f : Field) : Except Refusal (String × α) := do
  let name ← field f
  match t.find? name with
  | some a => return (name, a)
  | none => throw .noSuchName

/-- A name that is not in use yet. -/
def fresh (t : Names α) (f : Field) : Except Refusal String := do
  let name ← field f
  if t.uses name then throw .nameInUse else return name

/-- The channel that the second part of an endpoint's name means. -/
def channelOf? (c : Component) : List Char → Option ChannelId
  | 'i' :: n => (Numeral.natural? n).bind (c.inputs[·]?)
  | 'o' :: n => (Numeral.natural? n).bind (c.outputs[·]?)
  | _ => none

/-- The channel that a field names: a position of a component, or a name held by itself. -/
def endpoint (b : Bench) (f : Field) : Except Refusal Endpoint := do
  let name ← field f
  match splitAtLastDot name with
  | none =>
    let (_, channel) ← lookup b.channels f
    return { channel, holds := [.channel channel] }
  | some (component, position) =>
    let (_, c) ← lookup b.components (some component)
    match (b.world.components[c]?).bind (channelOf? · position) with
    | some channel => return { channel, holds := [.channel channel, .component c] }
    | none => throw .noSuchEndpoint

/-- The channel at an endpoint. -/
def channelAt (b : Bench) (p : Endpoint) : Except Refusal Channel :=
  match b.world.channels[p.channel]? with
  | some c => .ok c
  | none => .error .noSuchEndpoint

/-- The value of a field that has to be there, of a given kind. -/
def valueOf (given : Option Value) (payload : Payload) (e : Option Expr) : Except Refusal Value :=
  match e with
  | none => .error .badStep
  | some e =>
    match e.eval? given with
    | some v => if v.payload = payload then .ok v else .error .badValue
    | none => .error .badValue

end Bench

end Conduit.Scenario
