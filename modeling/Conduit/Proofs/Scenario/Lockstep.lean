/-
The machine in lockstep. A configuration of one side alone and one on a bench of two sides, with the same
frames and the same focus up to the places of things, make the same move (`Config.Paired`). Nothing that
is done on the way asks for more than what is on the side, so they go on alike.
-/
import Conduit.Proofs.Scenario.Apart

namespace Conduit.Scenario

def Focus.rename (ρ : Atlas) : Focus → Focus
  | .start step given => .start step given
  | .call slot v => .call (slot.rename ρ) v
  | .resume => .resume
  | .ended r => .ended (r.rename ρ)
  | .panicking p => .panicking p
  | .finished r => .finished (r.rename ρ)

section

variable (mine : Table → String → Bool) (strict : Prop)

/-- The steps that a frame still has to do stay on this side. -/
def Frame.Inside : Frame → Prop
  | .handling h => ∀ step ∈ h.doing, step.action.Inside mine strict
  | .thread steps _ _ => ∀ step ∈ steps, step.action.Inside mine strict
  | .batch _ _ => ¬ strict
  | _ => True

/-- A step that is to begin stays on this side. -/
def Focus.Inside : Focus → Prop
  | .start step _ => step.action.Inside mine strict
  | _ => True

end

variable {mine : Table → String → Bool} {strict : Prop} {ρ σ : Atlas} {n : Kind → Nat} {b u B : Bench}

theorem positionOf_rename (slot : Slot) : positionOf (slot.rename ρ) = positionOf slot := by
  cases slot <;> rfl

/-! ## What the machine asks of a bench -/

namespace Bench.Shares

variable (h : Shares mine strict ρ σ n b u B)
include h

theorem rulesOf (slot : Slot) : B.rulesOf (slot.rename ρ) = b.rulesOf slot := by
  cases slot with
  | handler c position =>
    show (B.rules[ρ.component c]?).getD [] = (b.rules[c]?).getD []
    rw [h.rules.left, Option.map_id, id]
  | callback c =>
    show ((B.callbackStates[ρ.callback c]?).map (·.rules)).getD [] = ((b.callbackStates[c]?).map (·.rules)).getD []
    rw [h.callbackStates.left, Option.map_id, id]

theorem rulesOf_inside (slot : Slot) : RulesInside mine strict (b.rulesOf slot) := by
  intro rule hrule
  cases slot with
  | handler c position =>
    rcases hc : b.rules[c]? with _ | rules
    · rw [Bench.rulesOf, hc] at hrule
      cases hrule
    · rw [Bench.rulesOf, hc] at hrule
      exact h.rules_inside rules (List.mem_of_getElem? hc) rule hrule
  | callback c =>
    rcases hc : b.callbackStates[c]? with _ | k
    · rw [Bench.rulesOf, hc] at hrule
      cases hrule
    · rw [Bench.rulesOf, hc] at hrule
      exact h.callbacks_inside k (List.mem_of_getElem? hc) rule hrule

theorem useRule (slot : Slot) (i : Nat) :
    Shares mine strict ρ σ n (b.useRule slot i) u (B.useRule (slot.rename ρ) i) := by
  cases slot with
  | handler c position =>
    exact { h with
      rules := h.rules.modify (h.world.beside.split .component) c fun _ => rfl
      rules_length := (List.length_modify ..).trans h.rules_length
      rules_inside := fun rules hrules => by
        obtain ⟨old, hold, rfl | rfl⟩ := of_mem_modify hrules
        · exact (h.rules_inside old hold).use i
        · exact h.rules_inside rules hold }
  | callback c =>
    exact { h with
      callbackStates := h.callbackStates.modify (h.world.beside.split .callback) c fun _ => rfl
      callbacks_length := (List.length_modify ..).trans h.callbacks_length
      callbacks_inside := fun k hk => by
        obtain ⟨old, hold, rfl | rfl⟩ := of_mem_modify hk
        · exact (h.callbacks_inside old hold).use i
        · exact h.callbacks_inside k hold }

theorem slotName? (slot : Slot) : B.slotName? (slot.rename ρ) = b.slotName? slot := by
  cases slot with
  | handler c position => exact h.world.livingName? c
  | callback c =>
    show (B.callbackStates[ρ.callback c]?).map (·.name) = (b.callbackStates[c]?).map (·.name)
    rw [h.callbackStates.left, Option.map_id, id]

theorem isConnected (source : Source) (place : Nat) :
    B.isConnected (source.rename ρ) place = b.isConnected source place := by
  cases source with
  | channel ch => exact h.world.hasPlace ch place
  | signal g =>
    show (B.signal? (ρ.signal g)).any (·.has place) = (b.signal? g).any (·.has place)
    rw [h.signal?, Option.any_map]
    congr 1
    funext s
    exact s.has_rename place

theorem leave (rest : List Frame) (slot : Slot) :
    Shares mine strict ρ σ n (b.leave rest slot) u (B.leave (rest.map (Frame.rename ρ)) (slot.rename ρ)) := by
  cases slot with
  | handler c position => exact h.settle (pinned_rename rest) (.component c)
  | callback c => exact h

theorem closeEmission (e : Emission) : Shares mine strict ρ σ n (e.close b) u ((e.rename ρ).close B) := by
  show Shares mine strict ρ σ n (e.close b) u (e.close B)
  unfold Emission.close
  split
  · exact h.note (.event (.slotsPanicked e.messages.length e.called))
  · exact h

/-- The order of what came after so many entries is not kept, but the entries are. -/
theorem sortLogAfter (hs : ¬ strict) (kept : Nat) :
    Shares mine strict ρ σ n (b.sortLogAfter kept) u (B.sortLogAfter kept) := by
  have hsorted : ∀ b : Bench, (b.sortLogAfter kept).world.log.Perm b.world.log := fun b => by
    have hfresh := ((List.mergeSort_perm ((b.world.log.take (b.world.log.length - kept)).map fun e =>
      (Document.Json.render e.toDocument, e)) fun x y => y.1 ≤ x.1).map (·.2)).append_right
        (b.world.log.drop (b.world.log.length - kept))
    rw [List.map_map] at hfresh
    have hsame : (b.world.log.take (b.world.log.length - kept)).map
        ((fun x : String × Entry => x.2) ∘ fun e => (Document.Json.render e.toDocument, e)) =
          b.world.log.take (b.world.log.length - kept) := List.map_id _
    rw [hsame, List.take_append_drop] at hfresh
    exact hfresh
  exact h.of_world { h.world with
    log := ⟨(hsorted B).trans (h.world.log.perm.trans ((hsorted b).symm.map _)), fun hstrict => absurd hstrict hs⟩ }

end Bench.Shares

/-- What a step held is let go on both. -/
theorem Bench.Shares.letGo (rest : List Frame) : ∀ (holds : List Ref) {b B : Bench}, Shares mine strict ρ σ n b u B →
    Shares mine strict ρ σ n (b.letGo rest holds) u (B.letGo (rest.map (Frame.rename ρ)) (holds.map (Ref.rename ρ)))
  | [], _, _, h => h
  | r :: more, b, B, h => by
    rw [List.map_cons, Bench.letGo, Bench.letGo]
    refine letGo rest more (h.settle (fun x => ?_) r)
    rw [contains_rename, pinned_rename]

/-! ## In lockstep -/

namespace Config

/-- The same is under way in both, up to the places of things; all that is still to be done stays on the
side. -/
structure Paired (mine : Table → String → Bool) (strict : Prop) (ρ σ : Atlas) (n : Kind → Nat) (u : Bench)
    (c C : Config) : Prop where
  bench : Bench.Shares mine strict ρ σ n c.bench u C.bench
  frames : C.frames = c.frames.map (Frame.rename ρ)
  focus : C.focus = c.focus.rename ρ
  frames_inside : ∀ f ∈ c.frames, f.Inside mine strict
  focus_inside : c.focus.Inside mine strict

variable {c C : Config} {frames : List Frame}

/-- Both go on alike, if new places belong to the side; lists only grow. -/
def Advances (mine : Table → String → Bool) (strict : Prop) (ρ σ : Atlas) (n : Kind → Nat) (u : Bench)
    (c C : Config) : Prop :=
  n ≤ C.bench.lengths ∧ (ρ.Owns n C.bench.lengths → Paired mine strict ρ σ C.bench.lengths u c C)

theorem Paired.advances (h : Paired mine strict ρ σ n u c C) : Advances mine strict ρ σ n u c C :=
  ⟨h.bench.lengths.ge, fun _ => by rw [h.bench.lengths]; exact h⟩

/-- A step begins on both. -/
theorem start_advances (h : Bench.Shares mine strict ρ σ n b u B) (hf : ∀ f ∈ frames, f.Inside mine strict)
    {step : Step Action} (hs : step.action.Inside mine strict) (given : Option Value) (focus focus' : Focus) :
    Advances mine strict ρ σ n u (start ⟨b, frames, focus⟩ step given)
        (start ⟨B, frames.map (Frame.rename ρ), focus'⟩ step given) := by
  have hagree := h.perform frames given hs
  unfold start
  dsimp only
  generalize b.perform frames given step.action = x at hagree
  generalize B.perform (frames.map (Frame.rename ρ)) given step.action = X at hagree
  rcases x with why | ⟨b', outcome, holds⟩
  · rcases X with why' | X
    · obtain rfl : why = why' := hagree
      refine Paired.advances ⟨h, rfl, rfl, List.forall_mem_cons.2 ⟨trivial, hf⟩, trivial⟩
    · exact hagree.elim
  · rcases X with why | ⟨B', outcome', holds'⟩
    · exact hagree.elim
    · obtain ⟨hle, hshares, hholds, hcarried, hsingle⟩ := hagree
      dsimp only at hle hshares hholds hcarried hsingle
      subst hholds
      refine ⟨by cases outcome' <;> exact hle, fun hown => ?_⟩
      have hown' : ρ.Owns n B'.lengths := by cases outcome' <;> exact hown
      obtain ⟨hb, rfl⟩ := hshares hown'
      -- The frame of the step comes on top, and what the action opens comes above that.
      have hrest : ∀ f ∈ Frame.step step.op holds :: frames, f.Inside mine strict :=
        List.forall_mem_cons.2 ⟨trivial, hf⟩
      cases outcome with
      | answer r => exact ⟨hb, rfl, rfl, hrest, trivial⟩
      | emission e => exact ⟨hb, rfl, rfl, List.forall_mem_cons.2 ⟨trivial, hrest⟩, trivial⟩
      | call slot v => exact ⟨hb, rfl, rfl, List.forall_mem_cons.2 ⟨trivial, hrest⟩, trivial⟩
      | panic p => exact ⟨hb, rfl, rfl, hrest, trivial⟩
      | thread steps => exact ⟨hb, rfl, rfl, List.forall_mem_cons.2 ⟨hcarried steps rfl, hrest⟩, trivial⟩
      | batch todo =>
        refine ⟨hb, ?_, rfl, List.forall_mem_cons.2 ⟨fun hstrict => hsingle hstrict todo rfl, hrest⟩, trivial⟩
        dsimp only [Outcome.rename]
        rw [hb.world.log.length]
        rfl

theorem call_paired (h : Bench.Shares mine strict ρ σ n b u B) (hf : ∀ f ∈ frames, f.Inside mine strict)
    (slot : Slot) (v : Value) (focus focus' : Focus) : Paired mine strict ρ σ n u (call ⟨b, frames, focus⟩ slot v)
      (call ⟨B, frames.map (Frame.rename ρ), focus'⟩ (slot.rename ρ) v) := by
  unfold call
  dsimp only
  rw [h.slotName?, positionOf_rename]
  split
  · exact ⟨h.note _, rfl, rfl, List.forall_mem_cons.2 ⟨fun _ hs => absurd hs List.not_mem_nil, hf⟩, trivial⟩
  · exact ⟨h.note _, rfl, rfl, hf, trivial⟩

theorem handle_paired (h : Bench.Shares mine strict ρ σ n b u B) (hf : ∀ f ∈ frames, f.Inside mine strict)
    {k : Handling}
    (hk : ∀ step ∈ k.doing, step.action.Inside mine strict) (focus focus' : Focus) (all all' : List Frame) :
    Paired mine strict ρ σ n u (handle ⟨b, all, focus⟩ k frames)
      (handle ⟨B, all', focus'⟩ (k.rename ρ) (frames.map (Frame.rename ρ))) := by
  obtain ⟨slot, value, nextRule, doing⟩ := k
  unfold handle
  dsimp only [Handling.rename]
  -- The handler looks for its next rule, or goes on with the steps of the last one.
  rcases doing with _ | ⟨step, doing⟩
  · dsimp only
    rw [h.rulesOf]
    simp only [positionOf_rename]
    rcases hrule : (b.rulesOf slot)[nextRule]? with _ | rule
    · exact ⟨h.leave frames slot, rfl, rfl, hf, trivial⟩
    · have hinside := h.rulesOf_inside slot rule (List.mem_of_getElem? hrule)
      dsimp only
      split
      · exact ⟨h.useRule slot nextRule, rfl, rfl, List.forall_mem_cons.2 ⟨hinside, hf⟩, trivial⟩
      · exact ⟨h, rfl, rfl, List.forall_mem_cons.2 ⟨fun _ hs => absurd hs List.not_mem_nil, hf⟩, trivial⟩
  · obtain ⟨hstep, hdoing⟩ := List.forall_mem_cons.1 hk
    exact ⟨h, rfl, rfl, List.forall_mem_cons.2 ⟨hdoing, hf⟩, hstep⟩

theorem result_rename (e : Emission) : (e.rename ρ).result = e.result.rename ρ := by
  show e.result = e.result.rename ρ
  unfold Emission.result
  split <;> rfl

theorem visit_paired (h : Bench.Shares mine strict ρ σ n b u B) (hf : ∀ f ∈ frames, f.Inside mine strict) (e : Emission)
    (focus focus' : Focus) (all all' : List Frame) :
    Paired mine strict ρ σ n u (visit ⟨b, all, focus⟩ e frames)
      (visit ⟨B, all', focus'⟩ (e.rename ρ) (frames.map (Frame.rename ρ))) := by
  unfold visit
  -- Both emissions have places left, or none of them has.
  rcases hrem : e.remaining with _ | ⟨place, remaining⟩
  · rw [show (e.rename ρ).remaining = [] by rw [Emission.rename, hrem]; rfl]
    exact ⟨h.closeEmission e, rfl, congrArg Focus.ended (result_rename e), hf, trivial⟩
  · rw [show (e.rename ρ).remaining = place.rename ρ :: remaining.map (Place.rename ρ) by
      rw [Emission.rename, hrem]; rfl]
    dsimp only
    rw [show (e.rename ρ).source = e.source.rename ρ from rfl, show (place.rename ρ).id = place.id from rfl,
      h.isConnected]
    split
    · refine ⟨?_, rfl, rfl, List.forall_mem_cons.2 ⟨trivial, hf⟩, trivial⟩
      show Bench.Shares mine strict ρ σ n (if e.policy = .numbered then b.note (.deliver e.called) else b) u
        (if e.policy = .numbered then B.note (.deliver e.called) else B)
      split
      · exact h.note (.deliver e.called)
      · exact h
    · exact ⟨h, rfl, rfl, List.forall_mem_cons.2 ⟨trivial, hf⟩, trivial⟩

theorem resume_paired (h : Bench.Shares mine strict ρ σ n b u B) (hf : ∀ f ∈ frames, f.Inside mine strict)
    (focus focus' : Focus) :
    Paired mine strict ρ σ n u (resume ⟨b, frames, focus⟩) (resume ⟨B, frames.map (Frame.rename ρ), focus'⟩) := by
  rcases frames with _ | ⟨f, rest⟩
  · exact ⟨h, rfl, rfl, hf, trivial⟩
  · obtain ⟨hinside, hrest⟩ := List.forall_mem_cons.1 hf
    cases f with
    | step op holds => exact ⟨h, rfl, rfl, hf, trivial⟩
    | handling k => exact handle_paired h hrest hinside ..
    | emission e => exact visit_paired h hrest e ..
    | call => exact ⟨h, rfl, rfl, hrest, trivial⟩
    | thread steps given results =>
      rcases steps with _ | ⟨step, steps⟩
      · refine ⟨h, rfl, congrArg Focus.ended ?_, hrest, trivial⟩
        exact congrArg Result.several (Result.renameAll_eq ρ results).symm
      · obtain ⟨hstep, hsteps⟩ := List.forall_mem_cons.1 hinside
        exact ⟨h, rfl, rfl, List.forall_mem_cons.2 ⟨hsteps, hrest⟩, hstep⟩
    | batch todo kept =>
      rcases todo with _ | ⟨⟨ch, v⟩, todo⟩
      · exact ⟨h.sortLogAfter hinside kept, rfl, rfl, hrest, trivial⟩
      · refine ⟨h, ?_, rfl, List.forall_mem_cons.2 ⟨trivial, List.forall_mem_cons.2 ⟨hinside, hrest⟩⟩, trivial⟩
        exact congrArg (fun e => Frame.emission e :: .batch (renameBatch ρ todo) kept :: rest.map (Frame.rename ρ))
          (h.emissionAt .plain ch v)

theorem answer_paired (h : Bench.Shares mine strict ρ σ n b u B) (hf : ∀ f ∈ frames, f.Inside mine strict) (r : Result)
    (focus focus' : Focus) : Paired mine strict ρ σ n u (answer ⟨b, frames, focus⟩ r)
      (answer ⟨B, frames.map (Frame.rename ρ), focus'⟩ (r.rename ρ)) := by
  rcases frames with _ | ⟨f, rest⟩
  · exact ⟨h, rfl, rfl, hf, trivial⟩
  · obtain ⟨-, hrest⟩ := List.forall_mem_cons.1 hf
    cases f with
    | step op holds =>
      -- The step lets go of what it holds, and what is below takes the answer.
      have hgone := Bench.Shares.letGo rest holds h
      rcases rest with _ | ⟨g, rest⟩
      · exact ⟨hgone, rfl, rfl, hrest, trivial⟩
      · cases g with
        | handling k => exact ⟨hgone.note (.did op r), rfl, rfl, hrest, trivial⟩
        | thread steps given results =>
          obtain ⟨hsteps, hbelow⟩ := List.forall_mem_cons.1 hrest
          have hresults : (results ++ [r]).map (Result.rename ρ) = results.map (Result.rename ρ) ++ [r.rename ρ] :=
            List.map_append ..
          refine ⟨hgone, ?_, rfl, List.forall_mem_cons.2 ⟨hsteps, hbelow⟩, trivial⟩
          exact congrArg (fun rs => Frame.thread steps given rs :: rest.map (Frame.rename ρ)) hresults.symm
        | _ => exact ⟨hgone, rfl, rfl, hrest, trivial⟩
    | batch todo kept => exact ⟨h, rfl, rfl, hf, trivial⟩
    | _ => exact ⟨h, rfl, rfl, hf, trivial⟩

theorem unwind_paired (h : Bench.Shares mine strict ρ σ n b u B) (hf : ∀ f ∈ frames, f.Inside mine strict) (p : Panic)
    (focus focus' : Focus) : Paired mine strict ρ σ n u (unwind ⟨b, frames, focus⟩ p)
      (unwind ⟨B, frames.map (Frame.rename ρ), focus'⟩ p) := by
  rcases frames with _ | ⟨f, rest⟩
  · exact ⟨h, rfl, rfl, hf, trivial⟩
  · obtain ⟨hinside, hrest⟩ := List.forall_mem_cons.1 hf
    cases f with
    | step op holds => exact ⟨Bench.Shares.letGo rest holds h, rfl, rfl, hrest, trivial⟩
    | handling k => exact ⟨h.leave rest k.slot, rfl, rfl, hrest, trivial⟩
    | emission e =>
      show Paired mine strict ρ σ n u (if e.policy = .collecting then _ else _)
        (if e.policy = .collecting then _ else _)
      split
      · exact ⟨h, rfl, rfl, List.forall_mem_cons.2 ⟨trivial, hrest⟩, trivial⟩
      · exact ⟨h, rfl, rfl, hrest, trivial⟩
    | call => exact ⟨h, rfl, rfl, hrest, trivial⟩
    | thread steps given results =>
      have hresults : (results ++ [Result.panicked p]).map (Result.rename ρ) =
          results.map (Result.rename ρ) ++ [Result.panicked p] :=
        List.map_append ..
      refine ⟨h, ?_, rfl, List.forall_mem_cons.2 ⟨hinside, hrest⟩, trivial⟩
      exact congrArg (fun rs => Frame.thread steps given rs :: rest.map (Frame.rename ρ)) hresults.symm
    | batch todo kept => exact ⟨h, rfl, rfl, hrest, trivial⟩

/-- One tick on both. -/
theorem Paired.tick (h : Paired mine strict ρ σ n u c C) : Advances mine strict ρ σ n u c.tick C.tick := by
  obtain ⟨b, frames, focus⟩ := c
  obtain ⟨B, frames', focus'⟩ := C
  obtain ⟨hb, hframes, hfocus, hinside, hnext⟩ := h
  dsimp only at hb hframes hfocus hinside hnext
  subst hframes hfocus
  cases focus with
  | start step given => exact start_advances hb hinside hnext given ..
  | call slot v => exact (call_paired hb hinside slot v ..).advances
  | resume => exact (resume_paired hb hinside ..).advances
  | ended r => exact (answer_paired hb hinside r ..).advances
  | panicking p => exact (unwind_paired hb hinside p ..).advances
  | finished r => exact Paired.advances ⟨hb, rfl, rfl, hinside, hnext⟩

end Config

end Conduit.Scenario
