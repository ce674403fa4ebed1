/-
Teardown: how subscriptions are closed and how channels and components end. Closing takes the
token of the connection, so it happens once; it reaches only those ends that still live. A channel
that ends counts as ended while it closes what its registry holds, and a component that ends lets
its inputs go before its outputs. Nothing here runs a handler. What stands outside of the wiring
and holds parts of it alive is given as a predicate `held`.
-/
import Conduit.Wiring.World

namespace Conduit.World

/-! ## Closing -/

/-- Takes the place of a connection out of an output's signal. A place that is not there is
reported. -/
def disconnect (w : World) (output : ChannelId) (place : Nat) : World :=
  match w.signal? output with
  | none => w
  | some signal =>
    match signal.disconnect? place with
    | some signal => w.setSignal output signal
    | none => w.note (.event (.unknownSlot place))

/-- Takes a place out of an output's signal on behalf of somebody who is no subscription. -/
def disconnectByHand (w : World) (output : ChannelId) (place : Nat) : World :=
  let w := if w.hasPlace output place then w.record (.removed output place) else w
  w.disconnect output place

/-- Whether the output's signal reports what happens to its connections. -/
def counts (w : World) (output : ChannelId) : Bool := (w.channels[output]?).any (·.counts)

/-- Adds an entry for a signal that reports what happens to its connections. -/
def noteIfCounting (w : World) (output : ChannelId) (e : Entry) : World :=
  if w.counts output then w.note e else w

/-- Marks a subscription as closed by taking its token. -/
def dropToken (w : World) (s : SubscriptionId) : World :=
  { w with subscriptions := w.subscriptions.modify (s - 1) fun sub => { sub with token := none } }

/-- Destroys the token of a subscription's place. -/
def release (w : World) (s : SubscriptionId) (output : ChannelId) : World :=
  (w.noteIfCounting output .released).record (.released s)

/-- Disconnects the place of a subscription. -/
def disconnectFor (w : World) (s : SubscriptionId) (output : ChannelId) (place : Nat) : World :=
  let w := w.noteIfCounting output .disconnected
  let w := w.record (.disconnected s (w.hasPlace output place))
  w.disconnect output place

/-- Removes a subscription at its output: a living output disconnects the place and forgets the
subscription, of an ended one only the token is left to be destroyed. -/
def closeAtOutput (w : World) (s : SubscriptionId) (output : ChannelId) (place : Nat) : World :=
  if w.channelAlive output then
    ((w.disconnectFor s output place).release s output).deregister output s
  else w.release s output

/-- Removes a subscription at its input, if that lives. -/
def closeAtInput (w : World) (s : SubscriptionId) (input : ChannelId) : World :=
  if w.channelAlive input then w.deregister input s else w

/-- Closes a subscription; once it is closed, nothing happens. -/
def close (w : World) (s : SubscriptionId) : World :=
  match w.subscription? s with
  | some { output, input, token := some place } =>
    let w := w.dropToken s
    let w := w.closeAtOutput s output place
    let w := w.closeAtInput s input
    w.note (.event (.closed s))
  | _ => w

/-- From here on a foreign handle says that it is not connected. -/
def deny (w : World) (f : Nat) : World :=
  { w with foreigns := w.foreigns.modify f fun g => { g with connected := false } }

/-- Closes what a handle stands for. A foreign handle only says so, every time. -/
def closeHandle (w : World) : Handle → World
  | .own s => w.close s
  | .foreign f =>
    match w.foreigns[f]? with
    | none => w
    | some g =>
      (w.note (.foreignClose g.name)).deny f

/-- Lets a handle go. A subscription that nothing holds any more closes itself. -/
def letGo (w : World) (held : Ref → Bool) (h : Handle) : World :=
  match h with
  | .foreign _ => w
  | .own s => if held (.handle h) || w.isRegistered h then w else w.close s

/-- Closes handles one after another, each announced. -/
def closeAll (w : World) (handles : List Handle) : World :=
  handles.foldl (fun w h => (w.note (.event (.draining (w.handleId h)))).closeHandle h) w

/-! ## Ends -/

/-- Takes the handles of a channel's registry one at a time, in the order of their numbers, and
closes each. Gives the number of handles closed. -/
def drain (ch : ChannelId) : Nat → World → Nat → World × Nat
  | 0, w, closed => (w, closed)
  | rounds + 1, w, closed =>
    match (w.registry ch).popMin? with
    | none => (w, closed)
    | some ((id, h), rest) =>
      let w := w.setRegistry ch rest
      let w := w.note (.event (.draining id))
      drain ch rounds (w.closeHandle h) (closed + 1)

/-- Closes everything that an ended channel's registry holds. -/
def drainAll (w : World) (ch : ChannelId) (direction : Direction) : World :=
  let size := (w.registry ch).size
  if size = 0 then w
  else
    let (w, closed) := drain ch size w 0
    w.note (.event (.channelDropped direction closed))

/-- From here on a channel does not live any more. -/
def markEnded (w : World) (ch : ChannelId) : World :=
  (w.modifyChannel ch fun c => { c with alive := false }).record (.ended ch)

/-- Ends a channel that lives. Its signal goes after its subscriptions. -/
def endChannel (w : World) (ch : ChannelId) : World :=
  match w.channels[ch]? with
  | none => w
  | some c =>
    if c.alive then
      let w := (w.markEnded ch).drainAll ch c.direction
      if c.counts then w.note .signalDead else w
    else w

/-- Ends a channel that neither its component nor anything else holds. Every channel here has been created with
its component, which holds it as long as it lives. A channel may also be made alone and only be bound to a
component: such a channel goes with its last holder, the component alive or not. There is none of these here. -/
def settleChannel (w : World) (held : Ref → Bool) (ch : ChannelId) : World :=
  match w.channels[ch]? with
  | none => w
  | some c => if w.componentAlive c.owner || held (.channel ch) then w else w.endChannel ch

/-- From here on a component does not live any more. -/
def markDead (w : World) (c : ComponentId) : World :=
  { w with components := w.components.modify c fun comp => { comp with alive := false } }

/-- Ends a component: its inputs are let go, then its outputs, both in the order of position. -/
def endComponent (w : World) (held : Ref → Bool) (c : ComponentId) : World :=
  match w.components[c]? with
  | none => w
  | some comp =>
    let w := (w.markDead c).note (.dead comp.name)
    (comp.inputs ++ comp.outputs).foldl (fun w ch => w.settleChannel held ch) w

/-- Ends a living component that nothing holds. -/
def settleComponent (w : World) (held : Ref → Bool) (c : ComponentId) : World :=
  if w.componentAlive c && !held (.component c) then w.endComponent held c else w

/-- Looks after a part that a holder has just let go. -/
def settle (w : World) (held : Ref → Bool) : Ref → World
  | .component c => w.settleComponent held c
  | .channel ch => w.settleChannel held ch
  | .handle h => w.letGo held h
  | .signal _ => w
  | .callback _ => w

end Conduit.World
