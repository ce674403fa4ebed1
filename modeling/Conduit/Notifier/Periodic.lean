/-
A periodic notifier: a worker that calls its callbacks at a fixed interval. Here every callback
follows a plan of what it does at which tick, and time passes only while the worker waits and while
a callback sleeps. A callback that panics is counted and keeps nobody else from being called.
-/
import Conduit.Duration
import Conduit.Notifier.Deadline
import Conduit.Notifier.Fault
import Conduit.Panic

namespace Conduit.Notifier

/-- Something that a callback does. -/
inductive Act
  /-- Adds one more callback. -/
  | connect
  /-- Looks at the notifier. -/
  | probe
  | stop
  /-- Gives the notifier up. -/
  | drop
  | sleep (milliseconds : Nat)
  | panic (p : Panic)
  /-- Does nothing. -/
  | idle
  deriving DecidableEq, Repr

/-- What one callback does at one tick. -/
structure Plan where
  callback : Nat
  tick : Nat
  acts : List Act

/-- What a notifier leaves in the log. -/
inductive Notice
  | called (callback tick : Nat)
  | connected (callback count : Nat)
  | probed (ticks failures callbacks : Nat) (running : Bool)
  | dropped
  | failed (reason : String)
  | workerFailed
  | stopped (ticks : Nat)
  deriving DecidableEq, Repr

/-- A notifier. -/
structure Periodic where
  interval : Duration
  /-- The number of callbacks; they are numbered from 0. -/
  callbacks : Nat := 1
  /-- The ticks that are complete. -/
  ticks : Nat := 0
  /-- The calls that ended in a panic. -/
  failures : Nat := 0
  /-- Whether the worker has been told to stop. -/
  interrupted : Bool := false
  /-- Whether the owner still has its worker. -/
  attached : Bool := true
  /-- Whether the owner has given the notifier up. -/
  dropped : Bool := false
  /-- The time, in nanoseconds. -/
  now : Nat := 0
  /-- The log; the newest entry comes first. -/
  log : List Notice := []

namespace Periodic

/-- Starts a notifier with one callback. -/
def start? (interval : Duration) : Except NotifierFault Periodic :=
  if interval.nanoseconds = 0 then .error .invalidInterval else .ok { interval }

/-- A notifier that has just started is as new. -/
theorem eq_of_start? {interval : Duration} {p : Periodic} (h : start? interval = .ok p) : p = { interval } := by
  unfold start? at h
  split at h
  · cases h
  · cases h
    rfl

/-- Adds a notice to the log. -/
def note (p : Periodic) (n : Notice) : Periodic := { p with log := n :: p.log }

/-- Adds a callback, which is called from the next tick on. -/
def connect (p : Periodic) : Periodic := { p with callbacks := p.callbacks + 1 }

/-- Tells the worker to stop, from inside of a callback: nobody waits for it there. -/
def interrupt (p : Periodic) : Periodic := { p with interrupted := true, attached := false }

/-- Whether the owner's worker is at work, as a callback sees it. -/
def isRunning (p : Periodic) : Bool := p.attached

/-! ## The worker -/

/-- Does what a plan says. Of a notifier that was given up nothing is left to act on. A panic ends
the callback. -/
def act (p : Periodic) : List Act → Periodic × Option Panic
  | [] => (p, none)
  | .panic cause :: _ => (p, some cause)
  | .sleep ms :: rest => act { p with now := p.now + (Duration.ofMilliseconds ms).nanoseconds } rest
  | .idle :: rest => act p rest
  | .connect :: rest =>
    if p.dropped then act p rest
    else act ((p.connect).note (.connected p.callbacks (p.callbacks + 1))) rest
  | .probe :: rest =>
    if p.dropped then act p rest
    else act (p.note (.probed p.ticks p.failures p.callbacks p.isRunning)) rest
  | .stop :: rest => if p.dropped then act p rest else act p.interrupt rest
  | .drop :: rest =>
    if p.dropped then act p rest
    else act ({ p.interrupt with dropped := true }.note .dropped) rest

/-- Calls one callback. -/
def call (plans : List Plan) (p : Periodic) (callback : Nat) : Periodic :=
  if p.dropped then p
  else
    let tick := p.ticks + 1
    let mine := plans.filter fun plan => plan.callback == callback && plan.tick == tick
    match (p.note (.called callback tick)).act (mine.flatMap (·.acts)) with
    | (p, none) => p
    | (p, some cause) => { p with failures := p.failures + 1 }.note (.failed cause.message)

/-- Calls the callbacks that there are at the beginning of the tick, and completes it. -/
def fire (plans : List Plan) (p : Periodic) : Periodic :=
  let p := (List.range p.callbacks).foldl (call plans) p
  { p with ticks := p.ticks + 1 }

/-- Waits for `deadline`, ticks, and goes on so, until the worker is told to stop, but for at most
so many ticks. -/
def work (plans : List Plan) : Nat → Nat → Periodic → Periodic
  | 0, _, p => p
  | ticks + 1, deadline, p =>
    if p.interrupted then p
    else
      let p := fire plans { p with now := max p.now deadline }
      work plans ticks (nextDeadline p.interval.nanoseconds deadline p.now) p

/-- The last tick that a plan speaks of. -/
def lastTick (plans : List Plan) : Nat := (plans.map (·.tick)).foldl max 0

/-- Lets the worker run as far as its plans go. -/
def run (plans : List Plan) (p : Periodic) : Periodic :=
  p.work plans (lastTick plans) (p.now + p.interval.nanoseconds)

/-! ## The owner -/

/-- Whether a moment that is one interval ahead is beyond what a clock can show, which holds 64 bits
of signed seconds. -/
def overflowsClock (p : Periodic) : Bool := (p.interval.seconds : Int) ≥ Numeral.greatestSigned

/-- Stops the worker and waits for its end. Only the owner who still has a worker has something to
report. -/
def stop (p : Periodic) : Periodic :=
  if p.attached then
    let p := { p with interrupted := true, attached := false }
    let p := if p.overflowsClock then p.note .workerFailed else p
    p.note (.stopped p.ticks)
  else { p with interrupted := true }

/-- A notifier as text. -/
def text (p : Periodic) : String :=
  Text.recordText "PeriodicNotifier"
    [("interval", p.interval.text), ("ticks", toString p.ticks),
     ("failures", toString p.failures)]

end Periodic

end Conduit.Notifier
