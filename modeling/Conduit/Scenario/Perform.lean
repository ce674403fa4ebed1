/-
Performing a step: its fields are checked one after another, and the first fault refuses the step.
A step then either has its answer at once, or begins something that runs on: an emission, a call,
a panic, further steps.
-/
import Conduit.Scenario.Frame
import Conduit.Wiring.Inspection

namespace Conduit.Scenario

/-- What a step comes to. -/
inductive Outcome
  | answer (r : Result)
  | emission (e : Emission)
  | call (slot : Slot) (value : Value)
  | panic (p : Panic)
  | thread (steps : List (Step Action))
  | batch (todo : List (ChannelId × Value))

/-- A step that has begun. -/
structure Begun where
  bench : Bench
  outcome : Outcome
  /-- What the step holds until it ends. -/
  holds : List Ref := []

namespace Bench

/-- A step that is answered at once. -/
def answered (b : Bench) (r : Result) : Except Refusal Begun :=
  .ok { bench := b, outcome := .answer r }

/-! ## Components and channels -/

/-- Creates a component under a name, with the rules that it acts by. -/
def furnish (b : Bench) (name : String) (layout : Layout) (rules : Rules) : Bench :=
  let (c, world) := b.world.create name layout
  { b with world, components := b.components.enter name c, rules := b.rules ++ [rules] }

def create (b : Bench) (name layout : Field) (rules : Rules) : Except Refusal Begun := do
  let name ← fresh b.components name
  let some layout := (← field layout) |> Layout.ofName? | throw .badStep
  (b.furnish name layout rules).answered .ok

def keep (b : Bench) (name component : Field) : Except Refusal Begun := do
  let name ← fresh b.components name
  let (_, c) ← lookup b.components component
  { b with components := b.components.enter name c }.answered .ok

def drop (b : Bench) (pins : Ref → Bool) (name : Field) : Except Refusal Begun := do
  let (name, c) ← lookup b.components name
  let b := { b with components := b.components.strike name }
  (b.settle pins (.component c)).answered .ok

def hold (b : Bench) (name endpoint : Field) : Except Refusal Begun := do
  let given ← field name
  let p ← b.endpoint endpoint
  let name ← fresh b.channels (some given)
  { b with channels := b.channels.enter name p.channel }.answered .ok

def release (b : Bench) (pins : Ref → Bool) (name : Field) : Except Refusal Begun := do
  let (name, ch) ← lookup b.channels name
  let b := { b with channels := b.channels.strike name }
  (b.settle pins (.channel ch)).answered .ok

def inspect (b : Bench) (endpoint : Field) : Except Refusal Begun := do
  let c ← b.channelAt (← b.endpoint endpoint)
  b.answered (.channel (b.world.channelView c))

def group (b : Bench) (name : Field) : Except Refusal Begun := do
  let (_, c) ← lookup b.components name
  match b.world.groupView? c with
  | some view => b.answered (.group view)
  | none => throw .noGroup

/-! ## Deliveries -/

/-- The emission of a value on an output, from its beginning. -/
def emissionAt (b : Bench) (policy : Policy) (ch : ChannelId) (value : Value) : Emission :=
  let places := ((b.world.signal? ch).map (·.places)).getD []
  { source := .channel ch, policy, value, snapshot := places, remaining := places }

def publish (b : Bench) (policy : Policy) (given : Option Value) (endpoint : Field)
    (value : Option Expr) : Except Refusal Begun := do
  let p ← b.endpoint endpoint
  let c ← b.channelAt p
  let v ← valueOf given c.payload value
  if c.direction = .input then throw .badValue
  return { bench := b, outcome := .emission (b.emissionAt policy p.channel v), holds := p.holds }

def callSlot (b : Bench) (given : Option Value) (endpoint : Field) (value : Option Expr) :
    Except Refusal Begun := do
  let p ← b.endpoint endpoint
  let c ← b.channelAt p
  let v ← valueOf given c.payload value
  if c.direction = .output then throw .badValue
  return { bench := b, outcome := .call c.slot v, holds := p.holds }

/-- The text of a panic, in which the value handled stands in for each `\x7bv\x7d`. -/
def panicText (given : Option Value) (text : String) : String :=
  text.replace "\x7bv\x7d" ((given.map Value.plain).getD "")

def panic (b : Bench) (given : Option Value) (kind text : Field) : Except Refusal Begun := do
  let p ← match ← field kind with
    | "any" => pure .other
    | "string" => return { bench := b, outcome := .panic (.text (panicText given (← field text))) }
    | "static" => Panic.text <$> field text
    | _ => throw .badStep
  return { bench := b, outcome := .panic p }

/-! ## Subscriptions -/

/-- The ways in which a subscription can be asked for; they all come to the same. -/
def ways : List String := ["out", "in", "connect", "connect_rev", "pub_trait", "sub_trait"]

/-- Whether a way of asking is missing or known. -/
def isWay : Option Field → Bool
  | none => true
  | some none => false
  | some (some way) => ways.contains way

def subscribe (b : Bench) (output input name : Field) (via : Option Field) :
    Except Refusal Begun := do
  let out ← b.endpoint output
  let inp ← b.endpoint input
  if name.any b.handles.uses then throw .nameInUse
  let o ← b.channelAt out
  let i ← b.channelAt inp
  if o.direction = .input ∨ i.direction = .output ∨ o.payload ≠ i.payload then
    throw .notConnectable
  if !isWay via then throw .badStep
  match b.world.subscribe? out.channel inp.channel with
  | none => b.answered (.alreadyConnected .oneToOne)
  | some (s, world) =>
    let handles := match name with
      | none => b.handles
      | some name => b.handles.enter name (.own s)
    { b with world, handles }.answered (.subscribed s)

def close (b : Bench) (handle : Field) : Except Refusal Begun := do
  let (_, h) ← lookup b.handles handle
  { b with world := b.world.closeHandle h }.answered .ok

def dropHandle (b : Bench) (pins : Ref → Bool) (handle : Field) : Except Refusal Begun := do
  let (name, h) ← lookup b.handles handle
  let b := { b with handles := b.handles.strike name }
  (b.settle pins (.handle h)).answered .ok

def cloneHandle (b : Bench) (handle name : Field) : Except Refusal Begun := do
  let (_, h) ← lookup b.handles handle
  let name ← fresh b.handles name
  { b with handles := b.handles.enter name h }.answered .ok

def handleInfo (b : Bench) (handle : Field) : Except Refusal Begun := do
  let (_, h) ← lookup b.handles handle
  b.answered (.subscription (b.world.handleId h) (b.world.handleConnected h))

/-- The kinds of ends that a subscription can be asked for, by the names of the two ends. -/
def endKinds? (output input : String) : Option World.EndKinds :=
  match output, input with
  | "many0", "int0" => some ⟨.int, .many, 0, 0⟩
  | "many0", "int1" => some ⟨.int, .many, 0, 1⟩
  | "many1", "int0" => some ⟨.int, .many, 1, 0⟩
  | "one0", "int0" => some ⟨.int, .one, 0, 0⟩
  | "one1", "int0" => some ⟨.int, .one, 1, 0⟩
  | "cnt0", "int0" => some ⟨.int, .counting, 0, 0⟩
  | "str1", "str1" => some ⟨.text, .many, 1, 1⟩
  | _, _ => none

def downcast (b : Bench) (handle output input : Field) : Except Refusal Begun := do
  let (_, h) ← lookup b.handles handle
  let some kinds := endKinds? (← field output) (← field input) | throw .badStep
  match h with
  | .foreign _ => b.answered .invalidCast
  | .own s =>
    if b.world.endKinds? s = some kinds then
      b.answered (((b.world.endsView? s).map .ends).getD .invalidCast)
    else b.answered .invalidCast

def has (b : Bench) (endpoint handle : Field) : Except Refusal Begun := do
  let p ← b.endpoint endpoint
  let (_, h) ← lookup b.handles handle
  b.answered (.flag ((b.world.registry p.channel).has (b.world.handleId h)))

def register (b : Bench) (endpoint handle : Field) : Except Refusal Begun := do
  let p ← b.endpoint endpoint
  let (_, h) ← lookup b.handles handle
  { b with world := b.world.register p.channel h }.answered .ok

def unregister (b : Bench) (pins : Ref → Bool) (endpoint handle : Field) : Except Refusal Begun := do
  let p ← b.endpoint endpoint
  let (_, h) ← lookup b.handles handle
  let id := b.world.handleId h
  let removed := (b.world.registry p.channel).get? id
  let b := { b with world := b.world.deregister p.channel id }
  match removed with
  | none => b.answered .ok
  | some removed => (b.settle pins (.handle removed)).answered .ok

def forge (b : Bench) (like name : Field) : Except Refusal Begun := do
  let (_, h) ← lookup b.handles like
  let name ← fresh b.handles name
  let world := b.world.adopt { id := b.world.handleId h, name }
  { b with world, handles := b.handles.enter name (.foreign b.world.foreigns.length) }.answered .ok

/-! ## Registries of their own -/

def newRegistry (b : Bench) (name : Field) : Except Refusal Begun := do
  let name ← fresh b.registries name
  { b with registries := b.registries.enter name .empty }.answered .ok

/-- The handles of the registry are let go in the order of their numbers. -/
def dropRegistry (b : Bench) (pins : Ref → Bool) (registry : Field) : Except Refusal Begun := do
  let (name, r) ← lookup b.registries registry
  let b := { b with registries := b.registries.strike name }
  (r.handles.foldl (fun b h => b.settle pins (.handle h)) b).answered .ok

def addTo (b : Bench) (registry handle : Field) : Except Refusal Begun := do
  let (name, r) ← lookup b.registries registry
  let (_, h) ← lookup b.handles handle
  { b with registries := b.registries.enter name (r.insert (b.world.handleId h) h) }.answered .ok

def removeFrom (b : Bench) (pins : Ref → Bool) (registry handle : Field) :
    Except Refusal Begun := do
  let (name, r) ← lookup b.registries registry
  let (_, h) ← lookup b.handles handle
  let id := b.world.handleId h
  match r.get? id with
  | none => b.answered (.flag false)
  | some removed =>
    let b := { b with registries := b.registries.enter name (r.erase id) }
    (b.settle pins (.handle removed)).answered (.flag true)

def contains (b : Bench) (registry handle : Field) : Except Refusal Begun := do
  let (_, r) ← lookup b.registries registry
  let (_, h) ← lookup b.handles handle
  b.answered (.flag (r.has (b.world.handleId h)))

def closeAll (b : Bench) (registry : Field) : Except Refusal Begun := do
  let (name, r) ← lookup b.registries registry
  let world := b.world.closeAll r.handles
  { b with world, registries := b.registries.enter name .empty }.answered (.count r.size)

def registryInfo (b : Bench) (registry : Field) : Except Refusal Begun := do
  let (_, r) ← lookup b.registries registry
  b.answered (.registry r.ids)

/-! ## Signals and callbacks -/

def newSignal (b : Bench) (name kind : Field) : Except Refusal Begun := do
  let name ← fresh b.signals name
  let cardinality ← match ← field kind with
    | "many" => pure .oneToMany
    | "one" => pure Cardinality.oneToOne
    | _ => throw .badStep
  let signals := b.signals.enter name b.signalStates.length
  let made : Signal Slot := { cardinality }
  { b with signals, signalStates := b.signalStates ++ [made] }.answered .ok

def dropSignal (b : Bench) (signal : Field) : Except Refusal Begun := do
  let (name, _) ← lookup b.signals signal
  { b with signals := b.signals.strike name }.answered .ok

def newCallback (b : Bench) (name : Field) (rules : Rules) : Except Refusal Begun := do
  let name ← fresh b.callbacks name
  let callbacks := b.callbacks.enter name b.callbackStates.length
  let made : Callback := { name, rules }
  { b with callbacks, callbackStates := b.callbackStates ++ [made] }.answered .ok

def dropCallback (b : Bench) (callback : Field) : Except Refusal Begun := do
  let (name, _) ← lookup b.callbacks callback
  { b with callbacks := b.callbacks.strike name }.answered .ok

def callCallback (b : Bench) (given : Option Value) (callback : Field) (value : Option Expr) :
    Except Refusal Begun := do
  let (_, c) ← lookup b.callbacks callback
  let v ← valueOf given .int value
  return { bench := b, outcome := .call (.callback c) v, holds := [.callback c] }

/-- How often a callback is held: by its name, by the places of signals that live, and by what is
under way. -/
def references (b : Bench) (frames : List Frame) (c : CallbackId) : Nat :=
  let named := b.callbacks.countP (·.2 == c)
  let places (g : SignalId) :=
    if b.keeps (pinned frames) (.signal g) then
      ((b.signal? g).map fun s => s.places.countP (·.slot == .callback c)).getD 0
    else 0
  let placed := (List.range b.signalStates.length).foldl (fun n g => n + places g) 0
  frames.foldl (fun n f => n + f.uses c) (named + placed)

def callbackInfo (b : Bench) (frames : List Frame) (callback : Field) : Except Refusal Begun := do
  let (_, c) ← lookup b.callbacks callback
  b.answered (.slot (b.references frames c))

/-- A signal that a field names. -/
def signalNamed (b : Bench) (f : Field) : Except Refusal (SignalId × Signal Slot) := do
  let (_, g) ← lookup b.signals f
  match b.signal? g with
  | some s => return (g, s)
  | none => throw .noSuchName

def connect (b : Bench) (signal callback connection : Field) : Except Refusal Begun := do
  let (g, s) ← b.signalNamed signal
  let (_, c) ← lookup b.callbacks callback
  let name ← fresh b.connections connection
  match s.connect? (.callback c) with
  | none => b.answered (.alreadyConnected s.cardinality)
  | some (id, s) =>
    let connections := b.connections.enter name id
    { (b.setSignal g s) with connections }.answered (.connection id)

/-- Uses up a connection, whichever signal it came from. -/
def disconnect (b : Bench) (signal connection : Field) : Except Refusal Begun := do
  let (g, s) ← b.signalNamed signal
  let (name, id) ← lookup b.connections connection
  let b := { b with connections := b.connections.strike name }
  match s.disconnect? id with
  | some s => (b.setSignal g s).answered .ok
  | none => (b.note (.event (.unknownSlot id))).answered .ok

def emit (b : Bench) (given : Option Value) (signal : Field) (value : Option Expr)
    (numbered : Bool) : Except Refusal Begun := do
  let (g, s) ← b.signalNamed signal
  let v ← valueOf given .int value
  let emission : Emission :=
    { source := .signal g, policy := if numbered then .numbered else .plain, value := v
      snapshot := s.places, remaining := s.places }
  return { bench := b, outcome := .emission emission, holds := [.signal g] }

def signalInfo (b : Bench) (signal : Field) : Except Refusal Begun := do
  let (_, s) ← b.signalNamed signal
  b.answered (.signal s.size s.cardinality)

/-- Disconnects at an output by hand, which the signals that count do not offer. -/
def disconnectAt (b : Bench) (endpoint connection : Field) : Except Refusal Begun := do
  let p ← b.endpoint endpoint
  let c ← b.channelAt p
  if c.direction = .input ∨ c.counts then throw .badStep
  let (name, id) ← lookup b.connections connection
  let b := { b with connections := b.connections.strike name }
  { b with world := b.world.disconnectByHand p.channel id }.answered .ok

/-! ## Threads -/

/-- Publishes `0, 1, …` on several outputs. How the threads take turns is not part of the answer,
so one output comes after the other. -/
def parallel (b : Bench) (endpoints : Option (List Field)) (count : Option Nat) :
    Except Refusal Begun := do
  let some endpoints := endpoints | throw .badStep
  let endpoints ← endpoints.mapM b.endpoint
  let some count := count | throw .badStep
  let channels ← endpoints.mapM b.channelAt
  if channels.any fun c => c.direction = .input || c.payload = .text then throw .badValue
  let todo := endpoints.flatMap fun p =>
    (List.range count).map fun n => (p.channel, Value.int (Int64.ofNat n))
  return { bench := b, outcome := .batch todo, holds := endpoints.flatMap (·.holds) }

/-! ## Any step -/

/-- Begins a step, with the value that is being handled, if one is. -/
def perform (b : Bench) (frames : List Frame) (given : Option Value) :
    Action → Except Refusal Begun
  | .create name layout rules => b.create name layout rules
  | .keep name component => b.keep name component
  | .drop name => b.drop (pinned frames) name
  | .hold name endpoint => b.hold name endpoint
  | .release name => b.release (pinned frames) name
  | .inspect endpoint => b.inspect endpoint
  | .group name => b.group name
  | .publish endpoint value => b.publish .plain given endpoint value
  | .tryPublish endpoint value => b.publish .collecting given endpoint value
  | .callSlot endpoint value => b.callSlot given endpoint value
  | .panic kind text => b.panic given kind text
  | .subscribe output input name via => b.subscribe output input name via
  | .close handle => b.close handle
  | .dropHandle handle => b.dropHandle (pinned frames) handle
  | .cloneHandle handle name => b.cloneHandle handle name
  | .handleInfo handle => b.handleInfo handle
  | .downcast handle output input => b.downcast handle output input
  | .has endpoint handle => b.has endpoint handle
  | .register endpoint handle => b.register endpoint handle
  | .unregister endpoint handle => b.unregister (pinned frames) endpoint handle
  | .forge like name => b.forge like name
  | .newRegistry name => b.newRegistry name
  | .dropRegistry registry => b.dropRegistry (pinned frames) registry
  | .addTo registry handle => b.addTo registry handle
  | .removeFrom registry handle => b.removeFrom (pinned frames) registry handle
  | .contains registry handle => b.contains registry handle
  | .closeAll registry => b.closeAll registry
  | .registryInfo registry => b.registryInfo registry
  | .newSignal name kind => b.newSignal name kind
  | .dropSignal signal => b.dropSignal signal
  | .newCallback name rules => b.newCallback name rules
  | .dropCallback callback => b.dropCallback callback
  | .callCallback callback value => b.callCallback given callback value
  | .callbackInfo callback => b.callbackInfo frames callback
  | .connect signal callback connection => b.connect signal callback connection
  | .disconnect signal connection => b.disconnect signal connection
  | .emit signal value numbered => b.emit given signal value numbered
  | .signalInfo signal => b.signalInfo signal
  | .disconnectAt endpoint connection => b.disconnectAt endpoint connection
  | .thread steps =>
    match steps with
    | some steps => .ok { bench := b, outcome := .thread steps }
    | none => .error .badStep
  | .parallel endpoints count => b.parallel endpoints count
  | .unknown => .error .badStep

end Bench

end Conduit.Scenario
