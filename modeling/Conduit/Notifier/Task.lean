/-
A periodic task on a virtual clock of milliseconds. The first call comes one period after the task
starts. A call that comes late by more than five milliseconds delays all that follow: the next is
due one period after it; else the next is due one period after the moment that was planned.
-/
import Conduit.Notifier.Fault

namespace Conduit.Notifier

/-- Where a task stands. -/
inductive Phase
  /-- It has not had its first turn. -/
  | fresh
  /-- It waits for its next call. -/
  | waiting (due : Nat)
  | panicked
  | cancelled
  deriving DecidableEq, Repr

/-- What the one who waits for the end of a task gets to know. -/
inductive Ending
  | panicked
  | cancelled
  deriving DecidableEq, Repr

/-- A task, its clock, and what it did. -/
structure Task where
  period : Nat
  /-- The number of the call that panics. Calls are counted anew whenever time is made to pass. -/
  panicAt : Option Nat
  now : Nat := 0
  phase : Phase := .fresh
  aborted : Bool := false
  joined : Bool := false
  calls : Nat := 0

namespace Task

/-- How late a call may be without delaying those that follow. -/
def tolerance : Nat := 5

/-- When the call after one is due that was planned for `due` and came at `now`. -/
def nextDue (period due now : Nat) : Nat :=
  if now > due + tolerance then now + period else due + period

/-- Starts a task; it has no turn yet. -/
def spawn? (period : Nat) (panicAt : Option Nat) : Except NotifierFault Task :=
  if period = 0 then .error .invalidInterval else .ok { period, panicAt }

/-- Whether the task has come to its end. -/
def isFinished (t : Task) : Bool :=
  match t.phase with
  | .fresh | .waiting _ => false
  | .panicked | .cancelled => true

/-- Gives the task a turn: it is cancelled if it was aborted, and starts if it has not. The count of
its calls begins anew. -/
def turn (t : Task) : Task :=
  let t := { t with calls := 0 }
  match t.phase with
  | .fresh =>
    if t.aborted then { t with phase := .cancelled }
    else { t with phase := .waiting (t.now + t.period) }
  | .waiting _ => if t.aborted then { t with phase := .cancelled } else t
  | .panicked | .cancelled => t

/-- Makes the call that was due at `due`, now. -/
def call (t : Task) (due : Nat) : Task :=
  let calls := t.calls + 1
  let phase := if t.panicAt = some calls then .panicked
    else .waiting (nextDue t.period due t.now)
  { t with calls, phase }

/-- Makes the calls that are due up to the time `limit`, at most so many; the clock goes on to each.
Gives the times of the calls. -/
def callsUpTo (limit : Nat) : Nat → Task → Task × List Nat
  | 0, t => (t, [])
  | most + 1, t =>
    match t.phase with
    | .waiting due =>
      if due ≤ limit then
        let t := { t with now := max t.now due }
        let (u, times) := callsUpTo limit most (t.call due)
        (u, t.now :: times)
      else (t, [])
    | _ => (t, [])

/-- How many calls can be due up to the time `limit`. -/
def bound (t : Task) (limit : Nat) : Nat := limit / t.period + 1

/-- Lets time run on by an amount. -/
def sleep (t : Task) (amount : Nat) : Task × List Nat :=
  let limit := t.now + amount
  let t := t.turn
  let (t, times) := callsUpTo limit (t.bound limit) t
  ({ t with now := limit }, times)

/-- Lets time jump by an amount; then the task has a turn. -/
def advance (t : Task) (amount : Nat) : Task × List Nat :=
  let t := { t with now := t.now + amount }.turn
  callsUpTo t.now (t.bound t.now) t

/-- Asks the task to end at its next turn. -/
def abort (t : Task) : Task := { t with aborted := true }

/-- Makes all calls up to the one that panics. -/
def exhaust (t : Task) : Task × List Nat :=
  match t.panicAt with
  | none => (t, [])
  | some last => loop last t
where
  /-- Makes so many calls, each when it is due. -/
  loop : Nat → Task → Task × List Nat
    | 0, t => (t, [])
    | most + 1, t =>
      match t.phase with
      | .waiting due =>
        let t := { t with now := max t.now due }
        let (u, times) := loop most (t.call due)
        (u, t.now :: times)
      | _ => (t, [])

/-- Waits for the end of the task, while time runs on as far as it takes. -/
def join (t : Task) : Task × List Nat × Option Ending :=
  if t.joined then (t, [], none)
  else
    let t := t.turn
    let (t, times) := if t.isFinished then (t, []) else t.exhaust
    let ending := match t.phase with
      | .panicked => some .panicked
      | .cancelled => some .cancelled
      | _ => none
    ({ t with joined := true }, times, ending)

end Task

end Conduit.Notifier
