/-
Everything that can happen. A history begins with nothing and goes on by moves: a tick; a step of any
kind, which a handler at work does or which comes from outside when all is done; a new component of
any layout. What handlers do is not bound by the rules they come with, so histories are those of all
programs (`Reachable`). Every configuration of every history is well formed.
-/
import Conduit.Proofs.Scenario.Tick

namespace Conduit.Scenario

open World (Changes License Symmetric)

/-- Any step is allowed where everything is. -/
theorem Action.within_any (a : Action) : a.Within .any := by
  cases a <;> trivial

namespace Config

/-- Where every history begins. -/
def empty : Config := { bench := {}, focus := .finished .ok }

/-- The beginning of a step that comes from outside, with a new log. -/
def next (c : Config) (step : Step Action) : Config :=
  { bench := { c.bench with world := { c.bench.world with log := [] } }, focus := .start step none }

/-- The wiring with what is held of it. -/
def scene (c : Config) : World.Scene := c.bench.scene (pinned c.frames)

/-- One move, where it is allowed. -/
inductive Move (may : License) (c : Config) : Config → Prop
  | tick (ht : ∀ step given, c.focus = .start step given → step.action.Within may) : Move may c c.tick
  /-- A handler at work does a step. -/
  | act {h : Handling} {rest : List Frame} (hframes : c.frames = .handling h :: rest) (hf : c.focus = .resume)
      (step : Step Action) : Move may c { c with focus := .start step (some h.value) }
  /-- The next step comes from outside. -/
  | next {r : Result} (hf : c.focus = .finished r) (step : Step Action) : Move may c (c.next step)
  /-- A component is created, of whatever layout, by a handler at work or from outside. -/
  | furnish (hf : (∃ h rest, c.frames = .handling h :: rest) ∧ c.focus = .resume ∨ ∃ r, c.focus = .finished r)
      {name : String} (hn : c.bench.components.uses name = false) (layout : Layout) (rules : Rules) :
      Move may c { c with bench := c.bench.furnish name layout rules }

/-- Any row of moves. -/
def Moves (may : License) : Config → Config → Prop := Relation.ReflTransGen (Move may)

/-- What a history can come to. -/
def Reachable (may : License) (c : Config) : Prop := Moves may empty c

variable {may : License} {c d : Config}

theorem frames_of_finished (hc : WellFormed c) {r : Result} (hf : c.focus = .finished r) : c.frames = [] := by
  have hfits := hc.fits
  rw [hf] at hfits
  rcases hframes : c.frames with _ | ⟨f, rest⟩
  · rfl
  · rw [hframes] at hfits
    exact hfits.elim

/-- Every move keeps what makes a configuration well formed. -/
theorem Move.preserves (hc : WellFormed c) (h : Move may c d) : Preserves may c d := by
  cases h with
  | tick ht => exact tick_preserves hc ht
  | act hframes hf step =>
    refine ⟨.refl c.bench, hc.stacked, ?_⟩
    show Frame.Sits (.step none []) c.frames
    rw [hframes]
    trivial
  | next hf step =>
    have hframes := frames_of_finished hc hf
    refine ⟨?_, trivial, trivial⟩
    rw [hframes]
    exact Bench.leads_of_world (.act _ (.relog []) (fun _ hr => hr)
      (.of_registry (fun _ h => h) (fun _ h => h) fun _ _ _ _ h => h))
  | furnish hf hn layout rules => exact ⟨Bench.leads_furnish c.bench _ layout rules hn, hc.stacked, hc.fits⟩

theorem scene_empty : empty.scene = ⟨{}, fun _ => false⟩ := by
  have hkeeps : Bench.keeps {} (pinned []) = fun _ => false := by
    funext r
    cases r <;> rfl
  show World.Scene.mk {} (Bench.keeps {} (pinned [])) = _
  rw [hkeeps]

theorem wellFormed_empty : WellFormed empty where
  bench := ⟨by
      have hscene : Bench.scene empty.bench (pinned empty.frames) = ⟨{}, fun _ => false⟩ := scene_empty
      rw [hscene]
      exact .empty,
    ⟨List.Pairwise.nil, List.Pairwise.nil⟩, fun g s hs => by simp [Bench.signal?, empty] at hs⟩
  stacked := trivial
  fits := trivial

theorem Move.any (h : Move may c d) : Move .any c d := by
  cases h with
  | tick _ => exact .tick fun step _ _ => step.action.within_any
  | act hframes hf step => exact .act hframes hf step
  | next hf step => exact .next hf step
  | furnish hf hn layout rules => exact .furnish hf hn layout rules

theorem Reachable.any (h : Reachable may c) : Reachable .any c := Relation.ReflTransGen.mono (fun _ _ h => h.any) _ _ h

/-- Whatever happens to a well-formed configuration, it stays so. -/
theorem Moves.wellFormed (h : Moves may c d) (hc : WellFormed c) : WellFormed d := by
  induction h with
  | refl => exact hc
  | tail _ hm ih => exact (hm.preserves ih).wellFormed ih

theorem Reachable.wellFormed (h : Reachable may c) : WellFormed c := Moves.wellFormed h wellFormed_empty

/-- What lies between two configurations of a history. -/
theorem Moves.leads (hc : WellFormed c) (h : Moves may c d) :
    Bench.Leads may (pinned c.frames) (pinned d.frames) c.bench d.bench := by
  induction h with
  | refl => exact .refl c.bench
  | tail hcs hm ih => exact ih.trans (hm.preserves (Moves.wellFormed hcs hc)).leads

/-- Later configurations of a history have later wirings. -/
theorem Moves.extends (hc : WellFormed c) (h : Moves may c d) : World.Extends c.bench.world d.bench.world :=
  (h.leads hc).changes.acts.rewires.extends

theorem Reachable.symmetric (h : Reachable .orderly c) : Symmetric c.bench.world := by
  have hchanges := (Moves.leads wellFormed_empty h).changes
  exact Symmetric.changes wellFormed_empty.bench.scene Symmetric.empty hchanges

/-- Where nobody does it, no places are taken out by hand. -/
theorem Reachable.not_removed (hm : ¬ may.disconnecting) (h : Reachable may c) (o : ChannelId) (p : Nat) :
    .removed o p ∉ c.bench.world.ledger := fun hr =>
  List.not_mem_nil ((Moves.leads wellFormed_empty h).changes.acts.rewires.removed hm hr)

/-- Running the machine stays within the history. -/
theorem Reachable.run : ∀ (n : Nat) {c : Config}, Reachable .any c → Reachable .any (c.run n)
  | 0, _, h => h
  | n + 1, c, h => by
    unfold Config.run
    split
    · exact h
    · have htick : Reachable .any c.tick := Relation.ReflTransGen.tail h (.tick fun step _ _ => step.action.within_any)
      exact Reachable.run n htick

/-- What a step of a script leaves behind is the bench of a history, with its log. -/
theorem Reachable.runStep (h : Reachable .any c) {r : Result} (hf : c.focus = .finished r) (step : Step Action) :
    ∃ d, Reachable .any d ∧ (runStep c.bench step).bench = d.bench ∧
      (runStep c.bench step).log = d.bench.world.log.reverse := by
  have hnext : Reachable .any (c.next step) := Relation.ReflTransGen.tail h (.next hf step)
  exact ⟨(c.next step).run patience, .run patience hnext, rfl, rfl⟩

/-! ## Histories that are written out -/

/-- Does steps from outside one after another, each with so many ticks. -/
def play (ticks : Nat) : List (Step Action) → Config → Config
  | [], c => c
  | step :: steps, c =>
    match c.focus with
    | .finished _ => play ticks steps ((c.next step).run ticks)
    | _ => c

/-- What is written out is a history. -/
theorem Reachable.play (ticks : Nat) : ∀ (steps : List (Step Action)) {c : Config}, Reachable .any c →
    Reachable .any (c.play ticks steps)
  | [], _, h => h
  | step :: steps, c, h => by
    unfold Config.play
    split
    · rename_i r hf
      have hnext : Reachable .any (c.next step) := Relation.ReflTransGen.tail h (.next hf step)
      exact Reachable.play ticks steps (.run ticks hnext)
    · exact h

/-- Two components, each with an input and an output. -/
def paired : Config :=
  let layout : Layout := { inputs := [.int], outputs := [(.int, .many)] }
  { empty with bench := (empty.bench.furnish "a" layout []).furnish "b" layout [] }

theorem reachable_paired : Reachable may paired :=
  .tail (.tail .refl (.furnish (.inr ⟨_, rfl⟩) (by decide) _ [])) (.furnish (.inr ⟨_, rfl⟩) (by decide) _ [])

/-- The second component is subscribed to the first, and there is a handle of that. -/
def linked : Config := (paired.next ⟨none, .subscribe (some "a.o0") (some "b.i0") (some "h") none⟩).tick.tick

theorem reachable_linked : Reachable .orderly linked := by
  refine .tail (.tail (.tail reachable_paired (.next rfl _)) (.tick fun step given hf => ?_))
    (.tick fun step given hf => ?_)
  · cases hf
    trivial
  · cases hf

/-- The place of that subscription has been disconnected by hand, with a connection of another signal
that has the same number. -/
def displaced : Config :=
  linked.play 9 [⟨none, .newSignal (some "x") (some "many")⟩, ⟨none, .newCallback (some "k") []⟩,
    ⟨none, .connect (some "x") (some "k") (some "n")⟩, ⟨none, .disconnectAt (some "a.o0") (some "n")⟩]

theorem reachable_displaced : Reachable .any displaced := reachable_linked.any.play 9 _

end Config

end Conduit.Scenario
