/-
Scripts: lists of steps that build a wiring, use it and take it down. The rules of a component or a
callback hold further steps, which run when a value that fits is delivered. A field that is missing
from a step, or is of the wrong kind, is kept as missing: what that means is found out when the
step is performed, since the fields are checked in their order.
-/
import Conduit.Wiring.Value

namespace Conduit.Scenario

/-- A value to deliver, given outright or computed from the value that is being handled. -/
inductive Expr
  | int (i : Int)
  | text (s : String)
  /-- The integer handled, times a factor, plus a term. -/
  | scaled (factor term : Int)
  /-- The decimal text of the integer handled. -/
  | decimal
  /-- The text handled, followed by another. -/
  | append (s : String)
  /-- The number of characters of the text handled. -/
  | length
  /-- What has no value. -/
  | invalid
  deriving DecidableEq, Repr

/-- The value of an expression. Products and sums wrap at 64 bits. -/
def Expr.eval? (given : Option Value) : Expr → Option Value
  | .int i => Value.ofInt? i
  | .text s => some (.text s)
  | .scaled factor term =>
    match given with
    | some (.int v) => some (.int (v * Int64.ofInt factor + Int64.ofInt term))
    | _ => none
  | .decimal =>
    match given with
    | some (.int v) => some (.text (Value.int v).plain)
    | _ => none
  | .append t =>
    match given with
    | some (.text s) => some (.text (s ++ t))
    | _ => none
  | .length =>
    match given with
    | some (.text s) => some (.int (Int64.ofNat s.length))
    | _ => none
  | .invalid => none

/-- What a value is compared with. -/
inductive Pattern
  | int (i : Int)
  | text (s : String)
  /-- What no value equals. -/
  | never
  deriving DecidableEq, Repr

/-- What has to hold of a value and of the position at which it arrives. -/
structure Guard where
  position : Option Nat := none
  equals : Option Pattern := none
  below : Option Int := none
  atLeast : Option Int := none
  deriving DecidableEq, Repr

/-- Whether a value equals a pattern. -/
def Pattern.accepts : Pattern → Value → Bool
  | .int i, .int v => v.toInt == i
  | .text t, .text s => s == t
  | _, _ => false

/-- Whether a delivery passes. A text is compared for equality only. -/
def Guard.accepts (g : Guard) (position : Nat) (value : Value) : Bool :=
  g.position.all (· == position) && g.equals.all (·.accepts value) &&
    match value with
    | .int v => g.below.all (v.toInt < ·) && g.atLeast.all (· ≤ v.toInt)
    | .text _ => true

/-- A rule: when the guard accepts a delivery, the steps run, at most so many times. -/
structure Rule (σ : Type) where
  guard : Guard
  times : Option Nat
  steps : List σ

/-- Whether the rule has not been used up. -/
def Rule.remains (r : Rule σ) : Bool := r.times != some 0

/-- The rule after one more use. -/
def Rule.use (r : Rule σ) : Rule σ := { r with times := r.times.map (· - 1) }

/-- A step, with the name of its operation as it was written. -/
structure Step (α : Type) where
  op : Option String
  action : α

/-- A field that may be missing. -/
abbrev Field := Option String

/-- What a step does. -/
inductive Action
  | create (name layout : Field) (rules : List (Rule (Step Action)))
  | keep (name component : Field)
  | drop (name : Field)
  | hold (name endpoint : Field)
  | release (name : Field)
  | inspect (endpoint : Field)
  | group (name : Field)
  | publish (endpoint : Field) (value : Option Expr)
  | tryPublish (endpoint : Field) (value : Option Expr)
  | callSlot (endpoint : Field) (value : Option Expr)
  | panic (kind text : Field)
  | subscribe (output input name : Field) (via : Option Field)
  | close (handle : Field)
  | dropHandle (handle : Field)
  | cloneHandle (handle name : Field)
  | handleInfo (handle : Field)
  | downcast (handle output input : Field)
  | has (endpoint handle : Field)
  | register (endpoint handle : Field)
  | unregister (endpoint handle : Field)
  | forge (like name : Field)
  | newRegistry (name : Field)
  | dropRegistry (registry : Field)
  | addTo (registry handle : Field)
  | removeFrom (registry handle : Field)
  | contains (registry handle : Field)
  | closeAll (registry : Field)
  | registryInfo (registry : Field)
  | newSignal (name kind : Field)
  | dropSignal (signal : Field)
  | newCallback (name : Field) (rules : List (Rule (Step Action)))
  | dropCallback (callback : Field)
  | callCallback (callback : Field) (value : Option Expr)
  | callbackInfo (callback : Field)
  | connect (signal callback connection : Field)
  | disconnect (signal connection : Field)
  | emit (signal : Field) (value : Option Expr) (numbered : Bool)
  | signalInfo (signal : Field)
  | disconnectAt (endpoint connection : Field)
  | thread (steps : Option (List (Step Action)))
  | parallel (endpoints : Option (List Field)) (count : Option Nat)
  | unknown

/-- The rules of a component or a callback. -/
abbrev Rules := List (Rule (Step Action))

end Conduit.Scenario
