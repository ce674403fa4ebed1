/-
One thread, and the mutexes of registries, signals and subscriptions. A mutex is not reentrant: what is done
under it is a section, and between sections the thread may come to foreign code, which calls whatever it
likes, returns or panics. What the thread has still to do is a list of tasks, and a reference to a handle that a
task has counts like one that a registry or foreign code has: a handle whose last reference goes is destroyed
there and then.

Foreign code is more than can be told of it here, so it is given every freedom: each slot that is let go may
be the last of its kind, and what a slot, a handle of others or the destruction of either does is open.
-/
import Conduit.Wiring.Teardown

namespace Conduit.Locking

/-! ## Sections -/

/-- A registry: that of a channel, or one that stands alone. -/
inductive RegistryRef
  | channel (ch : ChannelId)
  | separate (r : Nat)
  deriving DecidableEq

/-- A signal: that of an output, or one that stands alone. -/
inductive SignalRef
  | output (ch : ChannelId)
  | separate (g : SignalId)
  deriving DecidableEq

inductive Mutex
  | registry (r : RegistryRef)
  | signal (g : SignalRef)
  | subscription (s : SubscriptionId)
  deriving DecidableEq

/-- What is done while a mutex is held. -/
inductive Section
  /-- A handle is added, unless there is one of its number. -/
  | insert (r : RegistryRef) (h : Handle)
  /-- The handle of a number is removed, for the caller or to be let go. -/
  | erase (r : RegistryRef) (id : SubscriptionId) (returned : Bool)
  /-- The handle of the least number is taken, after so many others. -/
  | pop (r : RegistryRef) (closed : Nat)
  /-- Something is read. -/
  | look (m : Mutex)
  /-- A slot is connected; of an output for an input, or for its own sake. -/
  | connect (g : SignalRef) (slot : Slot) (input : Option ChannelId)
  /-- A place is taken out, for a subscription or for somebody else. -/
  | disconnect (g : SignalRef) (place : Nat) (client : Option SubscriptionId)
  /-- The places are copied, to be served one after another. -/
  | copy (g : SignalRef) (catching : Bool)
  /-- The token of a subscription is taken. -/
  | take (s : SubscriptionId)
  deriving DecidableEq

/-- The mutex that a section is under. -/
def Section.mutex : Section → Mutex
  | insert r _ | erase r _ _ | pop r _ => .registry r
  | look m => m
  | connect g _ _ | disconnect g _ _ | copy g _ => .signal g
  | take s => .subscription s

/-! ## Tasks -/

/-- What a thread has to do. -/
inductive Task
  /-- The mutex of a section is waited for. -/
  | enter (c : Section)
  | inside (c : Section)
  | unlock (m : Mutex)
  /-- Foreign code is at work. -/
  | outside
  /-- A panic is on its way. -/
  | unwind
  /-- A panic gets no further. -/
  | rescue
  | call (slot : Slot)
  /-- It is the turn of a place that was copied. -/
  | serve (g : SignalRef) (place : Place Slot) (catching : Bool)
  | free (slot : Slot)
  /-- A handle is asked for its number. -/
  | consult (h : Handle)
  | close (h : Handle)
  | drop (h : Handle)
  | destroy (h : Handle)
  /-- A handle goes to the caller. -/
  | give (h : Handle)
  /-- A subscription that has a place no more is removed at its output, then at its input. -/
  | atOutput (s : SubscriptionId) (output : ChannelId) (place : Nat)
  | atInput (s : SubscriptionId) (input : ChannelId)
  /-- A reference to a channel is let go. -/
  | leave (ch : ChannelId)
  /-- A channel that has ended closes what its registry holds, and then its fields go. -/
  | drain (ch : ChannelId)
  | perish (ch : ChannelId)
  /-- A subscription begins, with the place that its slot has got. -/
  | enlist (output input : ChannelId) (place : Nat)
  /-- What a registry holds is closed, one handle after another. -/
  | sweep (r : RegistryRef) (closed : Nat)
  /-- A registry that stands alone goes. -/
  | scrap (r : Nat)
  | note (e : Entry)

/-- The handle that a section is about to add. -/
def Section.handle? : Section → Option Handle
  | insert _ h => some h
  | _ => none

namespace Task

/-- The handle to which a task has a reference. -/
def handle? : Task → Option Handle
  | enter c | inside c => c.handle?
  | drop h | give h => some h
  | _ => none

/-- The channel to which a task has a reference. -/
def channel? : Task → Option ChannelId
  | leave ch => some ch
  | _ => none

/-- The mutex that a task holds. -/
def owes : Task → Option Mutex
  | inside c => some c.mutex
  | unlock m => some m
  | _ => none

/-- Foreign code runs, or something runs into it: a slot is called or let go, a handle is closed or destroyed. -/
def exposes : Task → Bool
  | outside | call _ | free _ | close _ | destroy _ => true
  | _ => false

/-- What a panic does on its way through a task that was to follow: what that holds is let go, and the rest of
it is left out. -/
def onPanic : Task → List Task
  | inside c => [.unlock c.mutex]
  | unlock m => [.unlock m]
  | free slot => [.free slot]
  | leave ch => [.leave ch]
  | perish ch => [.perish ch]
  | scrap r => [.scrap r]
  | t => t.handle?.toList.map drop

end Task

/-! ## The machine -/

/-- The thread and what it works on. What begins next is the first of its tasks. -/
structure Machine where
  world : World := {}
  registries : List (Registry Handle) := []
  signals : List (Signal Slot) := []
  /-- The references of foreign code. -/
  kept : List Ref := []
  held : List Mutex := []
  tasks : List Task := [.outside]

/-- What foreign code can do. -/
inductive Request
  | create (name : String) (layout : Layout)
  | forge (g : ForeignHandle)
  | newRegistry
  | newSignal (cardinality : Cardinality)
  | clone (a : Ref)
  /-- A weak reference becomes one that keeps the channel alive: that of a subscription to its ends, or any other. -/
  | upgrade (ch : ChannelId)
  | drop (a : Ref)
  /-- A reference to the handle goes along. -/
  | add (r : RegistryRef) (h : Handle)
  | remove (r : RegistryRef) (id : SubscriptionId)
  | closeAll (r : Nat)
  | look (m : Mutex)
  | close (h : Handle)
  | subscribe (output input : ChannelId)
  | connect (g : SignalRef) (slot : Slot)
  | disconnect (g : SignalRef) (place : Nat)
  | emit (g : SignalRef) (catching : Bool)
  | dropRegistry (r : Nat)
  | dropSignal (g : SignalId)

/-- What happens next, where that is not settled. -/
inductive Choice
  /-- The task that is first goes on, or a panic does. -/
  | go
  /-- Foreign code makes a request. -/
  | ask (a : Request)
  /-- Foreign code returns, panics, or catches a panic. -/
  | back
  | panic
  | rescue

namespace Machine

def registry (s : Machine) : RegistryRef → Registry Handle
  | .channel ch => s.world.registry ch
  | .separate r => s.registries.getD r .empty

def setRegistry (s : Machine) (r : RegistryRef) (x : Registry Handle) : Machine :=
  match r with
  | .channel ch => { s with world := s.world.setRegistry ch x }
  | .separate r => { s with registries := s.registries.set r x }

def signal? (s : Machine) : SignalRef → Option (Signal Slot)
  | .output ch => s.world.signal? ch
  | .separate g => s.signals[g]?

def setSignal (s : Machine) (g : SignalRef) (x : Signal Slot) : Machine :=
  match g with
  | .output ch => { s with world := s.world.setSignal ch x }
  | .separate g => { s with signals := s.signals.set g x }

/-- The slots at a place of this number. -/
def slotsAt (s : Machine) (g : SignalRef) (place : Nat) : List Slot :=
  (((s.signal? g).bind fun signal => signal.places.find? (·.id == place)).map (·.slot)).toList

def disconnect (s : Machine) (g : SignalRef) (place : Nat) (client : Option SubscriptionId) : Machine :=
  match g with
  | .output o =>
    match client with
    | some a => { s with world := (s.world.disconnectFor a o place).release a o }
    | none => { s with world := s.world.disconnectByHand o place }
  | .separate i =>
    match (s.signals[i]?).bind (·.disconnect? place) with
    | some signal => { s with signals := s.signals.set i signal }
    | none => { s with world := s.world.note (.event (.unknownSlot place)) }

/-- A reference to the handle is left. -/
def isHeld (s : Machine) (h : Handle) : Bool :=
  s.kept.contains (.handle h) || s.world.channels.any (·.registry.handles.contains h) ||
    s.registries.any (·.handles.contains h) || s.tasks.any (·.handle? == some h)

/-- A reference to the channel is left. -/
def holds (s : Machine) (ch : ChannelId) : Bool := s.kept.contains (.channel ch) || s.tasks.any (·.channel? == some ch)

/-- Some tasks come before those that there are. -/
def push (s : Machine) (more : List Task) : Machine := { s with tasks := more ++ s.tasks }

/-- A reference to the handle is let go. -/
def letGo (s : Machine) (h : Handle) : List Task := if s.isHeld h then [] else [.destroy h]

/-- A channel whose registry has been swept says so. -/
def swept (s : Machine) (closed : Nat) : RegistryRef → List Task
  | .channel ch => ((s.world.channels[ch]?).map fun c => .note (.event (.channelDropped c.direction closed))).toList
  | .separate _ => []

/-- What goes with a channel: the handles that it still lists, and the slots of its signal. -/
def remains (s : Machine) (ch : ChannelId) : List Task :=
  (s.world.registry ch).handles.map .drop ++
    (((s.world.signal? ch).map (·.places)).getD []).map (fun p => .free p.slot) ++
      if s.world.counts ch then [.note .signalDead] else []

/-- A subscription at an output is announced. -/
def announced (s : Machine) (a : SubscriptionId) (o : ChannelId) : List Task :=
  ((s.world.channels[o]?).bind fun c => c.signal?.map fun signal =>
    Task.note (.event (.subscribed a c.position signal.cardinality))).toList

/-- What is done within a section, and what follows when it is over. The mutex is released before that, with
one exception: the handle that is one too many goes while it is being added. -/
def perform (s : Machine) (c : Section) : Machine :=
  match c with
  | .insert r h =>
    let id := s.world.handleId h
    if (s.registry r).has id then s.push (s.letGo h ++ [.unlock c.mutex])
    else (s.setRegistry r ((s.registry r).insert id h)).push [.unlock c.mutex]
  | .erase r id returned =>
    let after := ((s.registry r).get? id).toList.map fun h => if returned then .give h else .drop h
    (s.setRegistry r ((s.registry r).erase id)).push (.unlock c.mutex :: after)
  | .pop r closed =>
    match (s.registry r).popMin? with
    | none => s.push (.unlock c.mutex :: s.swept closed r)
    | some ((id, h), rest) =>
      (s.setRegistry r rest).push
        [.unlock c.mutex, .consult h, .note (.event (.draining id)), .close h, .drop h, .sweep r (closed + 1)]
  | .look _ => s.push [.unlock c.mutex]
  | .connect g slot input =>
    match (s.signal? g).bind (·.connect? slot) with
    | none => s.push [.unlock c.mutex, .free slot]
    | some (place, signal) =>
      let after := match g, input with
        | .output o, some i => [.enlist o i place]
        | _, _ => []
      (s.setSignal g signal).push (.unlock c.mutex :: after)
  | .disconnect g place client =>
    (s.disconnect g place client).push (.unlock c.mutex :: (s.slotsAt g place).map .free)
  | .copy g catching =>
    let places := ((s.signal? g).map (·.places)).getD []
    s.push (.unlock c.mutex :: (places.map (.serve g · catching) ++ places.map fun p => .free p.slot))
  | .take a =>
    match s.world.subscription? a with
    | some { output, input, token := some place } =>
      { s with world := s.world.dropToken a }.push
        [.unlock c.mutex, .atOutput a output place, .atInput a input, .note (.event (.closed a))]
    | _ => s.push [.unlock c.mutex]

/-- A subscription that is connected is closed. -/
def sever (s : Machine) (a : SubscriptionId) : Machine := if s.world.isConnected a then s.push [.enter (.take a)] else s

/-- What is done in a task that is neither a section nor foreign. -/
def carry (s : Machine) : Task → Machine
  | .call _ => s.push [.outside]
  | .serve g place catching =>
    if (s.signal? g).any (·.has place.id) then
      s.push (.call place.slot :: if catching then [.rescue] else [])
    else s
  | .free _ | .consult (.foreign _) => s.push [.outside]
  | .close (.own a) => s.sever a
  | .close (.foreign f) => { s with world := s.world.closeHandle (.foreign f) }.push [.outside]
  | .drop h => s.push (s.letGo h)
  | .destroy (.own a) => s.sever a
  | .destroy (.foreign _) => s.push [.outside]
  | .give h => { s with kept := .handle h :: s.kept }
  | .atOutput a o place =>
    if s.world.channelAlive o then
      s.push [.enter (.disconnect (.output o) place (some a)), .enter (.erase (.channel o) a false), .leave o]
    else { s with world := s.world.release a o }
  | .atInput a i =>
    if s.world.channelAlive i then s.push [.enter (.erase (.channel i) a false), .leave i] else s
  | .leave ch =>
    if s.holds ch || !s.world.channelAlive ch then s
    else { s with world := s.world.markEnded ch }.push [.enter (.look (.registry (.channel ch))), .drain ch, .perish ch]
  | .drain ch => if (s.world.registry ch).size = 0 then s else s.push [.sweep (.channel ch) 0]
  | .perish ch => { s with world := s.world.setRegistry ch .empty }.push (s.remains ch)
  | .enlist o i place =>
    let a := s.world.subscriptions.length + 1
    { s with world := (s.world.enroll ⟨o, i, some place⟩).record (.connected a o place) }.push
      (.enter (.insert (.channel o) (.own a)) :: .enter (.insert (.channel i) (.own a)) ::
        (s.announced a o ++ [Task.give (.own a)]))
  | .sweep r closed => s.push [.enter (.pop r closed)]
  | .scrap r => { s with registries := s.registries.set r .empty }.push ((s.registries.getD r .empty).handles.map .drop)
  | .note e => { s with world := s.world.note e }
  | _ => s

/-- Foreign code has a reference. -/
def keeps (s : Machine) (a : Ref) : Bool := s.kept.contains a

/-- The registry can be reached from foreign code. -/
def offers (s : Machine) : RegistryRef → Bool
  | .channel ch => s.keeps (.channel ch)
  | .separate r => r < s.registries.length

/-- The signal can be reached from foreign code. -/
def shows (s : Machine) : SignalRef → Bool
  | .output ch => s.keeps (.channel ch)
  | .separate g => g < s.signals.length

/-- What follows when a reference of foreign code is let go. -/
def dropped : Ref → List Task
  | .handle h => [.drop h]
  | .channel ch => [.leave ch]
  | .callback c => [.free (.callback c)]
  | .component _ | .signal _ => []

/-- A request of foreign code is met, or cannot be made. -/
def ask (s : Machine) : Request → Option Machine
  | .create name layout =>
    let world := (s.world.create name layout).2
    let channels := (List.range world.channels.length).drop s.world.channels.length
    some { s with world, kept := channels.map .channel ++ s.kept }
  | .forge g =>
    some { s with world := s.world.adopt g, kept := .handle (.foreign s.world.foreigns.length) :: s.kept }
  | .newRegistry => some { s with registries := s.registries ++ [.empty] }
  | .newSignal cardinality => some { s with signals := s.signals ++ [{ cardinality }] }
  | .clone a => if s.keeps a then some { s with kept := a :: s.kept } else none
  | .upgrade ch => if s.world.channelAlive ch then some { s with kept := .channel ch :: s.kept } else none
  | .drop a => if s.keeps a then some ({ s with kept := s.kept.erase a }.push (dropped a)) else none
  | .add r h =>
    if s.keeps (.handle h) && s.offers r then
      some ({ s with kept := s.kept.erase (.handle h) }.push [.consult h, .enter (.insert r h)])
    else none
  | .remove r id =>
    if s.offers r then
      some (s.push [.enter (.erase r id (match r with | .channel _ => false | .separate _ => true))])
    else none
  | .closeAll r => if s.offers (.separate r) then some (s.push [.sweep (.separate r) 0]) else none
  | .look m => some (s.push [.enter (.look m)])
  | .close h => if s.keeps (.handle h) then some (s.push [.close h]) else none
  | .subscribe o i =>
    if s.keeps (.channel o) && s.keeps (.channel i) then
      (s.world.channels[i]?).map fun c => s.push [.enter (.connect (.output o) c.slot (some i))]
    else none
  | .connect g slot => if s.shows g then some (s.push [.enter (.connect g slot none)]) else none
  | .disconnect g place => if s.shows g then some (s.push [.enter (.disconnect g place none)]) else none
  | .emit g catching => if s.shows g then some (s.push [.enter (.copy g catching)]) else none
  | .dropRegistry r => if s.offers (.separate r) then some (s.push [.scrap r]) else none
  | .dropSignal g =>
    (s.signals[g]?).map fun signal =>
      { s with signals := s.signals.set g { signal with places := [] } }.push
        (signal.places.map fun p : Place Slot => Task.free p.slot)

/-- What foreign code does next. -/
def choose (s : Machine) (rest : List Task) : Choice → Option Machine
  | .ask a => s.ask a
  | .back => some { s with tasks := rest }
  | .panic => some { s with tasks := .unwind :: rest }
  | .go | .rescue => none

/-- A panic comes to the next task. There it may be caught, if foreign code is at work there; a second one that is
on its way ends everything. -/
def pass (s : Machine) (t : Task) (rest : List Task) (choice : Choice) : Option Machine :=
  match t, choice with
  | .unwind, _ => none
  | .rescue, .go => some { s with tasks := rest }
  | .outside, .rescue => some { s with tasks := .outside :: rest }
  | t, .go => some { s with tasks := t.onPanic ++ .unwind :: rest }
  | _, _ => none

/-- The next thing that the thread does. It cannot enter a section whose mutex is held. -/
def turn (s : Machine) (choice : Choice) : Option Machine :=
  match s.tasks with
  | [] => none
  | .outside :: rest => s.choose rest choice
  | .unwind :: [] => none
  | .unwind :: t :: rest => s.pass t rest choice
  | .enter c :: rest =>
    if c.mutex ∈ s.held then none else some { s with held := c.mutex :: s.held, tasks := .inside c :: rest }
  | .inside c :: rest => some ({ s with tasks := rest }.perform c)
  | .unlock m :: rest => some { s with held := s.held.erase m, tasks := rest }
  | t :: rest => some ({ s with tasks := rest }.carry t)

/-- What happens along these choices. -/
def play (s : Machine) : List Choice → Option Machine
  | [] => some s
  | choice :: choices => (s.turn choice).bind fun u => u.play choices

end Machine

end Conduit.Locking
