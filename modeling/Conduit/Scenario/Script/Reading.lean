/-
Reading scripts: the steps that documents stand for. Every document is a step; what it lacks is
kept as missing.
-/
import Conduit.Document
import Conduit.Scenario.Script

namespace Conduit.Scenario

/-- Whether an integer fits 64 bits. -/
def fits (i : Int) : Bool := (Value.ofInt? i).isSome

/-- A part of a computed value: an integer of 64 bits, with a default when it is missing. -/
def partOf (d : Document) (key : String) (default : Int) : Option Int :=
  match d.get? key with
  | none => some default
  | some (.int i) => if fits i then some i else none
  | some _ => none

/-- The value that a document describes. -/
def Expr.ofDocument (d : Document) : Expr :=
  match d with
  | .int i => .int i
  | .text s => .text s
  | .table _ =>
    if (d.get? "mul").isSome || (d.get? "add").isSome then
      match partOf d "mul" 1, partOf d "add" 0 with
      | some factor, some term => .scaled factor term
      | _, _ => .invalid
    else if d.get? "str" == some (.bool true) then .decimal
    else if d.get? "len" == some (.bool true) then .length
    else match d.textAt? "cat" with
      | some s => .append s
      | none => .invalid
  | _ => .invalid

/-- The pattern that a document describes. -/
def Pattern.ofDocument : Document → Pattern
  | .int i => .int i
  | .text s => .text s
  | _ => .never

/-- The guard that the fields of a rule describe. -/
def Guard.ofDocument (d : Document) : Guard :=
  { position := d.natAt? "port"
    equals := (d.get? "eq").map Pattern.ofDocument
    below := d.intAt? "lt"
    atLeast := d.intAt? "ge" }

/-- The value under `v`. -/
def valueOf (d : Document) : Option Expr := (d.get? "v").map Expr.ofDocument

mutual

/-- The rule that a document describes. -/
def ruleOf (d : Document) : Rule (Step Action) :=
  { guard := Guard.ofDocument d
    times := d.natAt? "times"
    steps := (d.itemsAt "do").map fun ⟨x, _⟩ => stepOf x }
termination_by sizeOf d

/-- The action of a document whose operation is `op`. -/
def stepOf (d : Document) : Step Action :=
  let text := d.textAt?
  let rules : Rules := (d.itemsAt "on").map fun ⟨x, _⟩ => ruleOf x
  let op := text "op"
  let action : Action := match op with
    | some "new" => .create (text "name") (text "shape") rules
    | some "keep" => .keep (text "name") (text "of")
    | some "drop" => .drop (text "name")
    | some "hold" => .hold (text "name") (text "port")
    | some "release" => .release (text "name")
    | some "inspect" => .inspect (text "port")
    | some "group" => .group (text "name")
    | some "publish" => .publish (text "port") (valueOf d)
    | some "try_publish" => .tryPublish (text "port") (valueOf d)
    | some "slot_call" => .callSlot (text "port") (valueOf d)
    | some "panic" => .panic (text "kind") (text "text")
    | some "subscribe" =>
      .subscribe (text "out") (text "in") (text "name") ((d.get? "via").map (·.text?))
    | some "close" => .close (text "sub")
    | some "drop_sub" => .dropHandle (text "sub")
    | some "clone_sub" => .cloneHandle (text "sub") (text "name")
    | some "sub_info" => .handleInfo (text "sub")
    | some "downcast" => .downcast (text "sub") (text "out") (text "in")
    | some "has" => .has (text "port") (text "sub")
    | some "register" => .register (text "port") (text "sub")
    | some "unregister" => .unregister (text "port") (text "sub")
    | some "fake_sub" => .forge (text "like") (text "name")
    | some "reg_new" => .newRegistry (text "name")
    | some "reg_drop" => .dropRegistry (text "reg")
    | some "reg_add" => .addTo (text "reg") (text "sub")
    | some "reg_remove" => .removeFrom (text "reg") (text "sub")
    | some "reg_contains" => .contains (text "reg") (text "sub")
    | some "reg_close_all" => .closeAll (text "reg")
    | some "reg_info" => .registryInfo (text "reg")
    | some "sig_new" => .newSignal (text "name") (text "kind")
    | some "sig_drop" => .dropSignal (text "sig")
    | some "slot_new" => .newCallback (text "name") rules
    | some "slot_drop" => .dropCallback (text "slot")
    | some "slot_raw_call" => .callCallback (text "slot") (valueOf d)
    | some "slot_info" => .callbackInfo (text "slot")
    | some "sig_connect" => .connect (text "sig") (text "slot") (text "conn")
    | some "sig_disconnect" => .disconnect (text "sig") (text "conn")
    | some "sig_emit" => .emit (text "sig") (valueOf d) (text "mode" == some "emit")
    | some "sig_info" => .signalInfo (text "sig")
    | some "disconnect_raw" => .disconnectAt (text "port") (text "conn")
    | some "thread" =>
      .thread <| ((d.get? "do").bind (·.list?)).map fun _ =>
        (d.itemsAt "do").map fun ⟨x, _⟩ => stepOf x
    | some "parallel" =>
      .parallel (((d.get? "ports").bind (·.list?)).map (·.map (·.text?))) (d.natAt? "count")
    | _ => .unknown
  { op, action }
termination_by sizeOf d

end

end Conduit.Scenario
