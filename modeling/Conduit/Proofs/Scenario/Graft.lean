/-
What runs above an emission does not see all that lies below. It depends on what the frames below hold,
and on nothing else: on other frames that hold the same (`Matched`) it does the same (`Graft`), until
it is done and the emission goes on.
-/
import Conduit.Proofs.Scenario.Run

namespace Conduit.Scenario

/-- Frames hold the same parts alive, and callbacks as often. -/
structure Matched (low low' : List Frame) : Prop where
  pins : pinned low' = pinned low
  uses : ∀ k n, low'.foldl (fun n f => n + f.uses k) n = low.foldl (fun n f => n + f.uses k) n

namespace Matched

variable {low low' : List Frame}

theorem symm (h : Matched low low') : Matched low' low := ⟨h.pins.symm, fun k n => (h.uses k n).symm⟩

theorem cons (h : Matched low low') {f f' : Frame} (hp : ∀ r, f'.pins r = f.pins r) (hu : ∀ k, f'.uses k = f.uses k) :
    Matched (f :: low) (f' :: low') where
  pins := by
    funext r
    show (f'.pins r || pinned low' r) = (f.pins r || pinned low r)
    rw [hp, h.pins]
  uses k n := by rw [List.foldl_cons, List.foldl_cons, hu, h.uses]

theorem above (h : Matched low low') : ∀ upper : List Frame, Matched (upper ++ low) (upper ++ low')
  | [] => h
  | _ :: upper => (h.above upper).cons (fun _ => rfl) fun _ => rfl

end Matched

/-- What a step comes to depends on the frames only by what they hold. -/
theorem Bench.perform_congr {frames frames' : List Frame} (h : Matched frames frames') (b : Bench)
    (given : Option Value) (a : Action) : b.perform frames' given a = b.perform frames given a := by
  have hreferences : b.references frames' = b.references frames := by
    funext k
    unfold references
    rw [h.pins, h.uses]
  cases a with
  | callbackInfo callback =>
    show b.callbackInfo frames' callback = b.callbackInfo frames callback
    unfold callbackInfo
    rw [hreferences]
  | drop name => rw [perform, perform, h.pins]
  | release name => rw [perform, perform, h.pins]
  | dropHandle handle => rw [perform, perform, h.pins]
  | unregister endpoint handle => rw [perform, perform, h.pins]
  | dropRegistry registry => rw [perform, perform, h.pins]
  | removeFrom registry handle => rw [perform, perform, h.pins]
  | _ => rfl

namespace Bench

variable {low low' : List Frame}

theorem letGo_congr (h : Matched low low') : ∀ (holds : List Ref) (b : Bench), b.letGo low' holds = b.letGo low holds
  | [], _ => rfl
  | r :: more, b => by
    rw [letGo, letGo, h.pins]
    exact letGo_congr h more _

theorem leave_congr (h : Matched low low') (b : Bench) (slot : Slot) : b.leave low' slot = b.leave low slot := by
  unfold leave
  rw [h.pins]

end Bench

namespace Config

/-- The same is under way in both, above an emission on `low` in one and above one on `low'` in the other. -/
def Graft (low low' : List Frame) (c c' : Config) : Prop :=
  ∃ upper, c.frames = upper ++ low ∧ c' = { c with frames := upper ++ low' }

variable {c c' d : Config} {low low' : List Frame}

theorem graft_start (hm : Matched low low') (h : Graft low low' c c') (step : Step Action) (given : Option Value) :
    Graft low low' (c.start step given) (c'.start step given) := by
  obtain ⟨upper, hf, rfl⟩ := h
  have hsame := Bench.perform_congr (hm.above upper) c.bench given step.action
  unfold start
  dsimp only
  rw [hsame, hf]
  rcases c.bench.perform (upper ++ low) given step.action with why | ⟨bench, outcome, holds⟩
  · exact ⟨.step step.op [] :: upper, rfl, rfl⟩
  · cases outcome with
    | answer r => exact ⟨.step step.op holds :: upper, rfl, rfl⟩
    | emission e => exact ⟨.emission e :: .step step.op holds :: upper, rfl, rfl⟩
    | call slot v => exact ⟨.call :: .step step.op holds :: upper, rfl, rfl⟩
    | panic p => exact ⟨.step step.op holds :: upper, rfl, rfl⟩
    | thread steps => exact ⟨.thread steps given [] :: .step step.op holds :: upper, rfl, rfl⟩
    | batch todo => exact ⟨.batch todo bench.world.log.length :: .step step.op holds :: upper, rfl, rfl⟩

theorem graft_call (h : Graft low low' c c') (slot : Slot) (v : Value) :
    Graft low low' (c.call slot v) (c'.call slot v) := by
  obtain ⟨upper, hf, rfl⟩ := h
  unfold call
  dsimp only
  split
  · exact ⟨.handling { slot, value := v } :: upper, congrArg _ hf, rfl⟩
  · exact ⟨upper, hf, rfl⟩

/-- What is on top goes on in the same way. -/
theorem graft_resume (hm : Matched low low') {f : Frame} {upper : List Frame} (hf : c.frames = f :: upper ++ low) :
    Graft low low' c.resume ({ c with frames := f :: upper ++ low' } : Config).resume := by
  have hrest := hm.above upper
  obtain ⟨bench, frames, focus⟩ := c
  dsimp only at hf
  subst hf
  -- What the top frame does depends on the frames below only by what they pin.
  cases f with
  | step op holds => exact ⟨.step op holds :: upper, rfl, rfl⟩
  | handling h =>
    show Graft low low' (handle _ h (upper ++ low)) (handle _ h (upper ++ low'))
    unfold handle
    split
    · exact ⟨_ :: upper, rfl, rfl⟩
    · dsimp only
      split
      · exact ⟨upper, rfl, by rw [Bench.leave_congr hrest]⟩
      · split
        · exact ⟨_ :: upper, rfl, rfl⟩
        · exact ⟨_ :: upper, rfl, rfl⟩
  | emission e =>
    show Graft low low' (visit _ e (upper ++ low)) (visit _ e (upper ++ low'))
    unfold visit
    split
    · exact ⟨upper, rfl, rfl⟩
    · dsimp only
      split
      · exact ⟨_ :: upper, rfl, rfl⟩
      · exact ⟨_ :: upper, rfl, rfl⟩
  | call => exact ⟨upper, rfl, rfl⟩
  | thread steps given results =>
    rcases steps with _ | ⟨step, steps⟩
    · exact ⟨upper, rfl, rfl⟩
    · exact ⟨_ :: upper, rfl, rfl⟩
  | batch todo kept =>
    rcases todo with _ | ⟨⟨ch, v⟩, todo⟩
    · exact ⟨upper, rfl, rfl⟩
    · exact ⟨.emission _ :: .batch todo kept :: upper, rfl, rfl⟩

section

variable {e e' : Emission} {base base' : List Frame}

/-- Neither emission takes an answer, so it makes no difference which one is below. -/
theorem graft_answer (hm : Matched (.emission e :: base) (.emission e' :: base')) {f : Frame} {upper : List Frame}
    (hf : c.frames = f :: upper ++ .emission e :: base) (r : Result) :
    Graft (.emission e :: base) (.emission e' :: base')
      (c.answer r) (({ c with frames := f :: upper ++ .emission e' :: base' } : Config).answer r) := by
  have hrest := hm.above upper
  obtain ⟨bench, frames, focus⟩ := c
  dsimp only at hf
  subst hf
  cases f with
  | step op holds =>
    unfold answer
    dsimp only [List.cons_append]
    rw [Bench.letGo_congr hrest]
    rcases upper with _ | ⟨g, upper⟩
    · exact ⟨[], rfl, rfl⟩
    · cases g with
      | handling h => exact ⟨_ :: upper, rfl, rfl⟩
      | thread steps given results => exact ⟨.thread steps given (results ++ [r]) :: upper, rfl, rfl⟩
      | _ => exact ⟨_ :: upper, rfl, rfl⟩
  | batch todo kept => exact ⟨_ :: upper, rfl, rfl⟩
  | _ => exact ⟨_ :: upper, rfl, rfl⟩

theorem graft_unwind (hm : Matched low low') {f : Frame} {upper : List Frame}
    (hf : c.frames = f :: upper ++ low) (p : Panic) :
    Graft low low' (c.unwind p) (({ c with frames := f :: upper ++ low' } : Config).unwind p) := by
  have hrest := hm.above upper
  obtain ⟨bench, frames, focus⟩ := c
  dsimp only at hf
  subst hf
  cases f with
  | step op holds => exact ⟨upper, rfl, by unfold unwind; dsimp only [List.cons_append]; rw [Bench.letGo_congr hrest]⟩
  | handling h => exact ⟨upper, rfl, by unfold unwind; dsimp only [List.cons_append]; rw [Bench.leave_congr hrest]⟩
  | emission k =>
    unfold unwind
    dsimp only [List.cons_append]
    split
    · exact ⟨_ :: upper, rfl, rfl⟩
    · exact ⟨upper, rfl, rfl⟩
  | call => exact ⟨upper, rfl, rfl⟩
  | thread steps given results => exact ⟨_ :: upper, rfl, rfl⟩
  | batch todo kept => exact ⟨upper, rfl, rfl⟩

/-- While something is above the emission, whatever happens can happen above the other one just so. -/
theorem graft_move (hc : WellFormed c) (hm : Matched (.emission e :: base) (.emission e' :: base')) {f : Frame}
    {upper : List Frame} (hf : c.frames = f :: upper ++ .emission e :: base) (h : Move .any c d) :
    ∃ d', Move .any { c with frames := f :: upper ++ .emission e' :: base' } d' ∧
      Graft (.emission e :: base) (.emission e' :: base') d d' := by
  let x : Config := { c with frames := f :: upper ++ .emission e' :: base' }
  have hgraft : Graft (.emission e :: base) (.emission e' :: base') c x := ⟨f :: upper, hf, rfl⟩
  -- With frames above the emission nothing is finished.
  have hfinished : ∀ r, c.focus ≠ .finished r := fun r hfocus => by
    rw [frames_of_finished hc hfocus] at hf
    cases hf
  cases h with
  | tick _ =>
    refine ⟨_, .tick fun step _ _ => step.action.within_any, ?_⟩
    unfold tick
    dsimp only
    split
    · exact graft_start hm hgraft _ _
    · exact graft_call hgraft _ _
    · exact graft_resume hm hf
    · exact graft_answer hm hf _
    · exact graft_unwind hm hf _
    · rename_i hfocus
      exact absurd hfocus (hfinished _)
  | @act k rest hframes hfocus step =>
    rw [hf, List.cons_append, List.cons.injEq] at hframes
    obtain ⟨rfl, -⟩ := hframes
    have hact : Move .any x { x with focus := .start step (some k.value) } := .act (c := x) rfl hfocus step
    exact ⟨_, hact, ⟨_, hf, rfl⟩⟩
  | next hfocus step => exact absurd hfocus (hfinished _)
  | furnish hwhere hn layout rules =>
    rcases hwhere with ⟨⟨k, rest, hframes⟩, hfocus⟩ | ⟨r, hfocus⟩
    · rw [hf, List.cons_append, List.cons.injEq] at hframes
      obtain ⟨rfl, -⟩ := hframes
      have hfurnish : Move .any x { x with bench := x.bench.furnish _ layout rules } :=
        .furnish (c := x) (.inl ⟨⟨k, _, rfl⟩, hfocus⟩) hn layout rules
      exact ⟨_, hfurnish, ⟨_, hf, rfl⟩⟩
    · exact absurd hfocus (hfinished _)

end

end Config

end Conduit.Scenario
