/-
Deadlines of a worker that ticks at a fixed interval. They are counted on from one another, so that
the time which callbacks take does not add up; a deadline that has passed already when its tick
would be waited for is not made up, and the count begins anew from that moment.
-/
namespace Conduit.Notifier

/-- The deadline after one whose tick ended at the time `now`. -/
def nextDeadline (interval deadline now : Nat) : Nat :=
  if deadline + interval < now then now + interval else deadline + interval

/-- A tick as it went: how late the worker woke up, and how long the callbacks took. -/
structure TickTiming where
  delay : Nat
  duration : Nat
  deriving DecidableEq, Repr

/-- When a tick ended that was waited for until `deadline`. -/
def TickTiming.ended (t : TickTiming) (deadline : Nat) : Nat := deadline + t.delay + t.duration

/-- The deadlines of the ticks of a worker that begins to wait for `first`, and the one after
them. -/
def deadlines (interval first : Nat) : List TickTiming → List Nat
  | [] => [first]
  | t :: rest => first :: deadlines interval (nextDeadline interval first (t.ended first)) rest

end Conduit.Notifier
