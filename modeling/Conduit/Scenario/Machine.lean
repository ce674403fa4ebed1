/-
The machine that runs scripts. A configuration is a bench, the frames of what is under way, and the
focus: the one thing to do next. Every tick does one small thing, so that whatever happens while a
handler runs is a configuration of its own. A panic takes frames off the stack up to the nearest
emission that collects panics, or the nearest thread, and every frame lets go what it holds.
-/
import Conduit.Document.Json
import Conduit.Scenario.Perform
import Conduit.Scenario.Report

namespace Conduit.Scenario

/-- What is done next. -/
inductive Focus
  /-- Begin a step, with the value that is being handled, if one is. -/
  | start (step : Step Action) (given : Option Value)
  /-- Call a slot. -/
  | call (slot : Slot) (value : Value)
  /-- Go on with the innermost frame. -/
  | resume
  /-- A step has its answer. -/
  | ended (r : Result)
  /-- A panic is on its way out. -/
  | panicking (p : Panic)
  /-- All is done. -/
  | finished (r : Result)

/-- A configuration of the machine. -/
structure Config where
  bench : Bench
  frames : List Frame := []
  focus : Focus

namespace Bench

/-- The rules by which a slot acts. -/
def rulesOf (b : Bench) : Slot → Rules
  | .handler c _ => (b.rules[c]?).getD []
  | .callback c => ((b.callbackStates[c]?).map (·.rules)).getD []

/-- Uses up one firing of a rule. -/
def useRule (b : Bench) (slot : Slot) (i : Nat) : Bench :=
  match slot with
  | .handler c _ => { b with rules := b.rules.modify c fun rules => rules.modify i Rule.use }
  | .callback c =>
    { b with callbackStates := b.callbackStates.modify c fun cb =>
      { cb with rules := cb.rules.modify i Rule.use } }

/-- The name under which a slot reports, unless its component is gone. -/
def slotName? (b : Bench) : Slot → Option String
  | .handler c _ => b.world.livingName? c
  | .callback c => (b.callbackStates[c]?).map (·.name)

/-- Whether a place of an emission is still connected. -/
def isConnected (b : Bench) (source : Source) (place : Nat) : Bool :=
  match source with
  | .channel ch => b.world.hasPlace ch place
  | .signal g => (b.signal? g).any (·.has place)

/-- Lets go what a step held, one after another, above the frames `rest`. -/
def letGo (rest : List Frame) : List Ref → Bench → Bench
  | [], b => b
  | r :: more, b => letGo rest more (b.settle (fun x => more.contains x || pinned rest x) r)

/-- Lets go the component whose handler has ended. -/
def leave (b : Bench) (rest : List Frame) : Slot → Bench
  | .handler c _ => b.settle (pinned rest) (.component c)
  | .callback _ => b

/-- Puts the entries that came after the first `kept` in the order of their texts. -/
def sortLogAfter (b : Bench) (kept : Nat) : Bench :=
  let log := b.world.log
  let fresh := (log.take (log.length - kept)).map fun e => (Document.Json.render e.toDocument, e)
  let fresh := (fresh.mergeSort fun x y => y.1 ≤ x.1).map (·.2)
  { b with world := { b.world with log := fresh ++ log.drop (log.length - kept) } }

end Bench

/-- The position at which a slot takes values. -/
def positionOf : Slot → Nat
  | .handler _ position => position
  | .callback _ => 0

/-- What an emission comes to. -/
def Emission.result (e : Emission) : Result :=
  if e.policy = .collecting ∧ e.messages ≠ [] then .slotsFailed e.called e.messages else .ok

/-- What an emission reports at its end. -/
def Emission.close (e : Emission) (b : Bench) : Bench :=
  if e.policy = .collecting ∧ e.messages ≠ [] then
    b.note (.event (.slotsPanicked e.messages.length e.called))
  else b

namespace Config

/-- Begins a step. -/
def start (c : Config) (step : Step Action) (given : Option Value) : Config :=
  match c.bench.perform c.frames given step.action with
  | .error why =>
    { c with frames := .step step.op [] :: c.frames, focus := .ended (.refused why) }
  | .ok { bench, outcome, holds } =>
    let frames := .step step.op holds :: c.frames
    match outcome with
    | .answer r => { bench, frames, focus := .ended r }
    | .emission e => { bench, frames := .emission e :: frames, focus := .resume }
    | .call slot v => { bench, frames := .call :: frames, focus := .call slot v }
    | .panic p => { bench, frames, focus := .panicking p }
    | .thread steps => { bench, frames := .thread steps given [] :: frames, focus := .resume }
    | .batch todo =>
      { bench, frames := .batch todo bench.world.log.length :: frames, focus := .resume }

/-- Calls a slot. A value for a component that is gone is dropped. -/
def call (c : Config) (slot : Slot) (value : Value) : Config :=
  match c.bench.slotName? slot with
  | some name =>
    { bench := c.bench.note (.received name (positionOf slot) value)
      frames := .handling { slot, value } :: c.frames
      focus := .resume }
  | none =>
    { c with bench := c.bench.note (.event (.consumerGone (positionOf slot))), focus := .resume }

/-- Goes on with a handler, above the frames `rest`: with its next step, or its next rule, or to
its end. -/
def handle (c : Config) (h : Handling) (rest : List Frame) : Config :=
  match h.doing with
  | step :: doing =>
    { c with frames := .handling { h with doing } :: rest, focus := .start step (some h.value) }
  | [] =>
    match (c.bench.rulesOf h.slot)[h.nextRule]? with
    | none => { bench := c.bench.leave rest h.slot, frames := rest, focus := .resume }
    | some rule =>
      let nextRule := h.nextRule + 1
      if rule.guard.accepts (positionOf h.slot) h.value && rule.remains then
        { bench := c.bench.useRule h.slot h.nextRule
          frames := .handling { h with nextRule, doing := rule.steps } :: rest
          focus := .resume }
      else { c with frames := .handling { h with nextRule } :: rest, focus := .resume }

/-- Goes on with an emission, above the frames `rest`: at the next place, if that is still
connected. -/
def visit (c : Config) (e : Emission) (rest : List Frame) : Config :=
  match e.remaining with
  | [] => { bench := e.close c.bench, frames := rest, focus := .ended e.result }
  | place :: remaining =>
    if c.bench.isConnected e.source place.id then
      { bench := if e.policy = .numbered then c.bench.note (.deliver e.called) else c.bench
        frames := .emission { e with remaining, called := e.called + 1 } :: rest
        focus := .call place.slot e.value }
    else { c with frames := .emission { e with remaining } :: rest, focus := .resume }

/-- Goes on with the innermost frame. -/
def resume (c : Config) : Config :=
  match c.frames with
  | .handling h :: rest => c.handle h rest
  | .emission e :: rest => c.visit e rest
  | .call :: rest => { c with frames := rest, focus := .ended .ok }
  | .thread [] _ results :: rest => { c with frames := rest, focus := .ended (.several results) }
  | .thread (step :: steps) given results :: rest =>
    { c with frames := .thread steps given results :: rest, focus := .start step given }
  | .batch [] kept :: rest =>
    { bench := c.bench.sortLogAfter kept, frames := rest, focus := .ended (.overlaps 0) }
  | .batch ((ch, v) :: todo) kept :: rest =>
    { c with
      frames := .emission (c.bench.emissionAt .plain ch v) :: .batch todo kept :: rest
      focus := .resume }
  | .step _ _ :: _ => { c with focus := .ended .ok }
  | [] => { c with focus := .finished .ok }

/-- Hands the answer of a step to the frame below it. -/
def answer (c : Config) (r : Result) : Config :=
  match c.frames with
  | .step op holds :: rest =>
    let bench := c.bench.letGo rest holds
    match rest with
    | .handling _ :: _ =>
      { bench := bench.note (.did op r), frames := rest, focus := .resume }
    | .thread steps given results :: rest =>
      { bench, frames := .thread steps given (results ++ [r]) :: rest, focus := .resume }
    | _ => { bench, frames := rest, focus := .finished r }
  | .batch _ _ :: _ => { c with focus := .resume }
  | _ => { c with focus := .finished r }

/-- Takes the innermost frame off for a panic, or catches the panic there. -/
def unwind (c : Config) (p : Panic) : Config :=
  match c.frames with
  | [] => { c with focus := .finished (.panicked p) }
  | .step _ holds :: rest =>
    { bench := c.bench.letGo rest holds, frames := rest, focus := .panicking p }
  | .handling h :: rest =>
    { bench := c.bench.leave rest h.slot, frames := rest, focus := .panicking p }
  | .emission e :: rest =>
    if e.policy = .collecting then
      { c with
        frames := .emission { e with messages := e.messages ++ [p.message] } :: rest
        focus := .resume }
    else { c with frames := rest, focus := .panicking p }
  | .thread steps given results :: rest =>
    { c with
      frames := .thread steps given (results ++ [.panicked p]) :: rest
      focus := .resume }
  | .call :: rest => { c with frames := rest, focus := .panicking p }
  | .batch _ _ :: rest => { c with frames := rest, focus := .panicking p }

/-- Does one small thing. -/
def tick (c : Config) : Config :=
  match c.focus with
  | .start step given => c.start step given
  | .call slot value => c.call slot value
  | .resume => c.resume
  | .ended r => c.answer r
  | .panicking p => c.unwind p
  | .finished _ => c

/-- Ticks until all is done, at most `fuel` times. -/
def run : Nat → Config → Config
  | 0, c => c
  | fuel + 1, c =>
    match c.focus with
    | .finished _ => c
    | _ => run fuel c.tick

end Config

/-! ## Scripts -/

/-- What is left behind by one step of a script: its answer, its part of the log in order of time,
and the bench after it. -/
structure Record where
  result : Result
  log : List Entry
  bench : Bench

/-- How many ticks a step of a script may take. -/
def patience : Nat := 1000000000

/-- Runs one step of a script to its end. -/
def runStep (b : Bench) (step : Step Action) : Record :=
  let b := { b with world := { b.world with log := [] } }
  let c := Config.run patience { bench := b, focus := .start step none }
  let result := match c.focus with
    | .finished r => r
    | _ => .ok
  { result, log := c.bench.world.log.reverse, bench := c.bench }

/-- Runs the steps of a script one after another. -/
def runScript : Bench → List (Step Action) → List Record
  | _, [] => []
  | b, step :: rest =>
    let record := runStep b step
    record :: runScript record.bench rest

end Conduit.Scenario
