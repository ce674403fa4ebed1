/-
Frames: what is under way. A run keeps a stack of frames, the innermost first: steps with what they
hold until they end, handlers at work, emissions with the places they still have to visit. A
component whose handler runs is held alive by its frame.
-/
import Conduit.Scenario.Bench

namespace Conduit.Scenario

/-- The signal that is emitted on. -/
inductive Source
  | channel (ch : ChannelId)
  | signal (g : SignalId)
  deriving DecidableEq, Repr

/-- How an emission treats its slots: a panic of a slot ends it, or panics are collected; or each
call is numbered in the log before it is made. -/
inductive Policy
  | plain
  | collecting
  | numbered
  deriving DecidableEq, Repr

/-- An emission under way. The places that were connected at its beginning are visited in order. -/
structure Emission where
  source : Source
  policy : Policy
  value : Value
  snapshot : List (Place Slot)
  remaining : List (Place Slot)
  /-- The number of slots called so far. -/
  called : Nat := 0
  /-- The texts of the panics caught so far, in the order of the calls. -/
  messages : List String := []

/-- A handler at work on a value. -/
structure Handling where
  slot : Slot
  value : Value
  /-- The rule to look at when the steps under way are done. -/
  nextRule : Nat := 0
  doing : List (Step Action) := []

/-- Something under way. -/
inductive Frame
  /-- A step, and what it holds until it ends, in the order of letting go. -/
  | step (op : Option String) (holds : List Ref)
  | handling (h : Handling)
  | emission (e : Emission)
  /-- A slot called directly. -/
  | call
  /-- Steps run one after another, each with an answer of its own. -/
  | thread (steps : List (Step Action)) (given : Option Value) (results : List Result)
  /-- Values published one after another on several outputs; the log they leave, behind the
  entries already there, is put in order at the end. -/
  | batch (todo : List (ChannelId × Value)) (entries : Nat)

namespace Frame

/-- Whether the frame itself holds a part alive. -/
def pins (f : Frame) (r : Ref) : Bool :=
  match f with
  | .step _ holds => holds.contains r
  | .handling h =>
    match h.slot with
    | .handler c _ => r == .component c
    | .callback _ => false
  | _ => false

/-- How often the frame holds a callback. -/
def uses (f : Frame) (c : CallbackId) : Nat :=
  match f with
  | .step _ holds => holds.count (.callback c)
  | .emission e => e.snapshot.countP (·.slot == .callback c)
  | _ => 0

end Frame

/-- Whether some frame holds a part alive. -/
def pinned (frames : List Frame) (r : Ref) : Bool := frames.any (·.pins r)

end Conduit.Scenario
