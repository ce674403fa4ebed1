/-
Turns. Histories are made of turns: each begins with a step from outside, or with nothing, and goes on by
ticks, by steps that handlers at work take it into their heads to do, and by new components of any layout.
Turns of one side run in lockstep on that side's own bench and on a bench of two sides.
-/
import Conduit.Proofs.Scenario.Lockstep
import Conduit.Proofs.Wiring.Division

namespace Conduit.Scenario

/-- What can happen in a turn. -/
inductive Doing
  | tick
  /-- A handler at work does a step. -/
  | act (step : Step Action)
  /-- A component is created, of whatever layout, by a handler at work or from outside. -/
  | furnish (name : String) (layout : Layout) (rules : Rules)

namespace Config

/-- The handler at work, when it is its turn. -/
def atWork? (c : Config) : Option Handling :=
  match c.focus, c.frames with
  | .resume, .handling h :: _ => some h
  | _, _ => none

/-- The answer from outside, when there is one. -/
def answer? (c : Config) : Option Result :=
  match c.focus with
  | .finished r => some r
  | _ => none

/-- Does what can be done now, and nothing otherwise. -/
def does (c : Config) : Doing → Config
  | .tick => c.tick
  | .act step =>
    match c.atWork? with
    | some h => { c with focus := .start step (some h.value) }
    | none => c
  | .furnish name layout rules =>
    if (c.atWork?.isSome || c.answer?.isSome) && !c.bench.components.uses name then
      { c with bench := c.bench.furnish name layout rules }
    else c

end Config

/-- A turn: the step that comes from outside, if one does, and what happens then. -/
structure Turn where
  step : Option (Step Action)
  doings : List Doing

namespace Bench

/-- The bench with a new log. -/
def cleared (b : Bench) : Bench := { b with world := { b.world with log := [] } }

/-- The beginning of a turn. -/
def opened (b : Bench) (step : Option (Step Action)) : Config :=
  { bench := b.cleared
    focus := match step with
      | some step => .start step none
      | none => .finished .ok }

end Bench

namespace Turn

/-- Takes the turn to its end. -/
def run (t : Turn) (b : Bench) : Record :=
  let c := t.doings.foldl Config.does (b.opened t.step)
  { result := c.answer?.getD .ok, log := c.bench.world.log.reverse, bench := c.bench }

/-- A step from outside with so many ticks. -/
def ofStep (ticks : Nat) (step : Step Action) : Turn := ⟨some step, List.replicate ticks .tick⟩

/-- A component is created from outside. -/
def furnish (name : String) (layout : Layout) (rules : Rules) : Turn := ⟨none, [.furnish name layout rules]⟩

end Turn

namespace Config

variable {c : Config}

/-- What is finished stays as it is. -/
theorem run_of_finished {r : Result} (hf : c.focus = .finished r) : ∀ ticks : Nat, c.run ticks = c
  | 0 => rfl
  | ticks + 1 => by
    unfold run
    rw [hf]

theorem run_succ (ticks : Nat) (c : Config) : c.run (ticks + 1) = c.tick.run ticks := by
  by_cases hf : ∃ r, c.focus = .finished r
  · obtain ⟨r, hf⟩ := hf
    have hstill : c.tick = c := by
      unfold tick
      rw [hf]
    rw [hstill, run_of_finished hf, run_of_finished hf]
  · conv_lhs => unfold run
    split
    · rename_i r hr
      exact absurd ⟨r, hr⟩ hf
    · rfl

theorem run_eq_foldl : ∀ (ticks : Nat) (c : Config), c.run ticks = (List.replicate ticks Doing.tick).foldl does c
  | 0, _ => rfl
  | ticks + 1, c => by
    rw [run_succ, run_eq_foldl ticks, List.replicate_succ, List.foldl_cons, does]

end Config

/-- A step of a script is a turn. -/
theorem runStep_eq (b : Bench) (step : Step Action) : runStep b step = (Turn.ofStep patience step).run b := by
  unfold runStep Turn.run Turn.ofStep
  dsimp only
  rw [← Config.run_eq_foldl, show Config.mk { b with world := { b.world with log := [] } } [] (.start step none) =
    b.opened (some step) from rfl]
  generalize Config.run patience (b.opened (some step)) = c
  obtain ⟨bench, frames, focus⟩ := c
  cases focus <;> rfl

/-! ## Turns of one side -/

section

variable (mine : Table → String → Bool) (strict : Prop)

/-- What is done stays on this side. -/
def Doing.Inside : Doing → Prop
  | .tick => True
  | .act step => step.action.Inside mine strict
  | .furnish name _ rules => mine .components name = true ∧ RulesInside mine strict rules

/-- A turn stays on this side. -/
structure Turn.Inside (t : Turn) : Prop where
  step : ∀ step, t.step = some step → step.action.Inside mine strict
  doings : ∀ d ∈ t.doings, d.Inside mine strict

end

/-- A step that carries none stays on this side if what it names does. -/
theorem Action.Inside.plain {mine : Table → String → Bool} {strict : Prop} {a : Action} (hn : a.Named mine)
    (hs : a.Single) (hc : a.carried = []) : a.Inside mine strict :=
  .intro hn (fun _ => hs) fun step hstep => absurd hstep (by rw [hc]; exact List.not_mem_nil)

theorem Turn.Inside.ofStep {mine : Table → String → Bool} {strict : Prop} {ticks : Nat} {step : Step Action}
    (h : step.action.Inside mine strict) : (Turn.ofStep ticks step).Inside mine strict where
  step _ he := Option.some.inj he ▸ h
  doings d hd := by
    rw [List.eq_of_mem_replicate hd]
    trivial

theorem Turn.Inside.furnish {mine : Table → String → Bool} {strict : Prop} {name : String} {rules : Rules}
    (hn : mine .components name = true) (layout : Layout) (hr : RulesInside mine strict rules) :
    (Turn.furnish name layout rules).Inside mine strict where
  step _ he := by cases he
  doings d hd := by
    rw [List.mem_singleton.1 hd]
    exact ⟨hn, hr⟩

/-- A record is another one, renamed. What threads do at once is logged in the order of its texts, and
numbers are part of them; without threads the order of the log is the same too. -/
structure Record.Renamed (strict : Prop) (ρ : Atlas) (r R : Record) : Prop where
  result : R.result = r.result.rename ρ
  entries : R.log.Perm (r.log.map (Entry.rename ρ))
  log : strict → R.log = r.log.map (Entry.rename ρ)

variable {mine : Table → String → Bool} {strict : Prop}

namespace Config

section Lockstep

variable {ρ σ : Atlas} {n : Kind → Nat} {u : Bench} {c C : Config} (h : Paired mine strict ρ σ n u c C)
include h

theorem Paired.atWork? : C.atWork? = c.atWork?.map (Handling.rename ρ) := by
  obtain ⟨b, frames, focus⟩ := c
  obtain ⟨B, frames', focus'⟩ := C
  obtain ⟨-, hframes, hfocus, -, -⟩ := h
  dsimp only at hframes hfocus
  subst hframes hfocus
  cases focus with
  | resume =>
    rcases frames with _ | ⟨f, rest⟩
    · rfl
    · cases f <;> rfl
  | _ => rfl

theorem Paired.answer? : C.answer? = c.answer?.map (Result.rename ρ) := by
  unfold Config.answer?
  rw [h.focus]
  cases c.focus <;> rfl

/-- Whatever is done on one side is done on both. -/
theorem Paired.does {d : Doing} (hd : d.Inside mine strict) : Advances mine strict ρ σ n u (c.does d) (C.does d) := by
  cases d with
  | tick => exact h.tick
  | act step =>
    unfold Config.does
    dsimp only
    rw [h.atWork?]
    rcases c.atWork? with _ | k
    · exact h.advances
    · exact Paired.advances ⟨h.bench, h.frames, rfl, h.frames_inside, hd⟩
  | furnish name layout rules =>
    obtain ⟨hname, hrules⟩ := hd
    unfold Config.does
    dsimp only
    rw [h.atWork?, h.answer?, Option.isSome_map, Option.isSome_map, h.bench.components.uses hname]
    split
    · have hlengths := h.bench.lengths_furnish name layout rules
      refine ⟨?_, fun hown => ?_⟩
      · dsimp only
        rw [hlengths]
        exact (le_grown _ _ _).trans (le_grown _ _ _)
      · dsimp only at hown ⊢
        rw [hlengths] at hown ⊢
        exact ⟨h.bench.furnish hname layout hrules hown, h.frames, h.focus, h.frames_inside, h.focus_inside⟩
    · exact h.advances

end Lockstep

variable {owner : Kind → Nat → Bool} {s : Bool} {n₀ : Kind → Nat} {u : Bench}

/-- A row of doings of one side, to which all new places go. -/
theorem does_all (hown : ∀ k p, n₀ k ≤ p → owner k p = s) :
    ∀ (ds : List Doing) {n : Kind → Nat} {c C : Config}, n₀ ≤ n →
    (∀ ρ, Divides owner n ρ → Paired mine strict (ρ s) (ρ !s) n u c C) → (∀ d ∈ ds, d.Inside mine strict) →
      n ≤ (ds.foldl does C).bench.lengths ∧ ∀ ρ, Divides owner (ds.foldl does C).bench.lengths ρ →
        Paired mine strict (ρ s) (ρ !s) (ds.foldl does C).bench.lengths u (ds.foldl does c) (ds.foldl does C)
  | [], n, c, C, _, h, _ => by
    obtain ⟨ρ, hρ⟩ := exists_divides owner n
    have hlengths : C.bench.lengths = n := (h ρ hρ).bench.lengths
    rw [List.foldl_nil, List.foldl_nil, hlengths]
    exact ⟨le_rfl, h⟩
  | d :: ds, n, c, C, hn, h, hds => by
    obtain ⟨hd, hds⟩ := List.forall_mem_cons.1 hds
    -- How long the lists get does not depend on where they are.
    obtain ⟨ρ, hρ⟩ := exists_divides owner n
    have hle : n ≤ (C.does d).bench.lengths := ((h ρ hρ).does hd).1
    have hstep : ∀ ρ, Divides owner (C.does d).bench.lengths ρ →
        Paired mine strict (ρ s) (ρ !s) (C.does d).bench.lengths u (c.does d) (C.does d) := fun ρ hρ =>
      ((h ρ (hρ.mono hle)).does hd).2 (hρ.owns fun k p hp => hown k p ((hn k).trans hp))
    obtain ⟨hmore, hall⟩ := does_all hown ds (hn.trans hle) hstep hds
    exact ⟨hle.trans hmore, hall⟩

/-- What two configurations in lockstep leave behind is the same, renamed. -/
theorem Paired.renamed {ρ σ : Atlas} {n : Kind → Nat} {c C : Config} (h : Paired mine strict ρ σ n u c C) :
    Record.Renamed strict ρ { result := c.answer?.getD .ok, log := c.bench.world.log.reverse, bench := c.bench }
      { result := C.answer?.getD .ok, log := C.bench.world.log.reverse, bench := C.bench } where
  result := by
    dsimp only
    rw [h.answer?]
    cases c.answer? <;> rfl
  entries := by
    dsimp only
    rw [List.map_reverse]
    exact (List.reverse_perm _).trans (h.bench.world.log.perm.trans (List.reverse_perm _).symm)
  log hs := by
    dsimp only
    rw [List.map_reverse, h.bench.world.log.same hs]

end Config

/-- A turn of one side. -/
theorem Turn.run_paired {owner : Kind → Nat → Bool} {s : Bool} {n : Kind → Nat} {b u B : Bench} {t : Turn}
    (hown : ∀ k p, n k ≤ p → owner k p = s) (ht : t.Inside mine strict)
    (h : ∀ ρ, Divides owner n ρ → Bench.Shares mine strict (ρ s) (ρ !s) n b.cleared u B.cleared) :
    n ≤ (t.run B).bench.lengths ∧ ∀ ρ, Divides owner (t.run B).bench.lengths ρ →
      Bench.Shares mine strict (ρ s) (ρ !s) (t.run B).bench.lengths (t.run b).bench u (t.run B).bench ∧
        Record.Renamed strict (ρ s) (t.run b) (t.run B) := by
  have hopened : ∀ ρ, Divides owner n ρ →
      Config.Paired mine strict (ρ s) (ρ !s) n u (b.opened t.step) (B.opened t.step) :=
    fun ρ hρ => by
      have hstep := ht.step
      refine ⟨h ρ hρ, rfl, ?_, fun _ hf => absurd hf List.not_mem_nil, ?_⟩
      · unfold Bench.opened
        cases t.step <;> rfl
      · unfold Bench.opened
        rcases hopen : t.step with _ | step
        · trivial
        · exact hstep step hopen
  obtain ⟨hle, hall⟩ := Config.does_all hown t.doings le_rfl hopened ht.doings
  exact ⟨hle, fun ρ hρ => ⟨(hall ρ hρ).bench, (hall ρ hρ).renamed⟩⟩

end Conduit.Scenario
