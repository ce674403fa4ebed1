/-
The stack of frames. Each kind of frame stands on certain others only: a handler on an emission or a
call, an emission on a step that holds its signal, a step on whatever runs steps. The focus fits the
frame on top. So nothing is ever answered to the wrong frame, and a signal lives as long as an
emission on it is under way (`Stacked`, `Focus.Fits`).
-/
import Conduit.Proofs.Scenario.Perform

namespace Conduit.Scenario

/-- What a frame stands on. -/
def Frame.Sits : Frame → List Frame → Prop
  | .step _ _, [] => True
  | .step _ _, .handling _ :: _ => True
  | .step _ _, .thread _ _ _ :: _ => True
  | .handling _, .emission _ :: _ => True
  | .handling _, .call :: _ => True
  | .emission e, .step _ holds :: _ => e.source.ref ∈ holds
  | .emission e, .batch _ _ :: .step _ holds :: _ => e.source.ref ∈ holds
  | .call, .step _ _ :: _ => True
  | .thread _ _ _, .step _ _ :: _ => True
  | .batch todo _, .step _ holds :: _ => ∀ x ∈ todo, Ref.channel x.1 ∈ holds
  | _, _ => False

/-- Every frame stands on what it can stand on. -/
def Stacked : List Frame → Prop
  | [] => True
  | f :: rest => f.Sits rest ∧ Stacked rest

/-- What can be done next with these frames. -/
def Focus.Fits : Focus → List Frame → Prop
  | .start _ _, rest => Frame.Sits (.step none []) rest
  | .call slot value, rest => Frame.Sits (.handling { slot, value }) rest
  | .resume, .handling _ :: _ => True
  | .resume, .emission _ :: _ => True
  | .resume, .call :: _ => True
  | .resume, .thread _ _ _ :: _ => True
  | .resume, .batch _ _ :: _ => True
  | .ended _, .step _ _ :: _ => True
  | .ended _, .batch _ _ :: _ => True
  | .panicking _, _ => True
  | .finished _, [] => True
  | _, _ => False

section Sits

variable {rest : List Frame}

theorem sits_step {op : Option String} {holds : List Ref} (h : (Frame.step op holds).Sits rest) (op' : Option String)
    (holds' : List Ref) : (Frame.step op' holds').Sits rest := by
  rcases rest with _ | ⟨⟨⟩, _⟩ <;> exact h

theorem sits_handling {h : Handling} (hs : (Frame.handling h).Sits rest) (h' : Handling) :
    (Frame.handling h').Sits rest := by
  rcases rest with _ | ⟨⟨⟩, _⟩ <;> exact hs

theorem sits_emission {e e' : Emission} (hs : (Frame.emission e).Sits rest) (he : e'.source = e.source) :
    (Frame.emission e').Sits rest := by
  rcases rest with _ | ⟨⟨⟩, _ | ⟨⟨⟩, _⟩⟩ <;> first | trivial | simpa [Frame.Sits, he] using hs

/-- An emission stands on a step that holds its signal. -/
theorem pinned_source {e : Emission} (hs : (Frame.emission e).Sits rest) : pinned rest e.source.ref = true := by
  have hheld : ∃ op holds, .step op holds ∈ rest ∧ e.source.ref ∈ holds := by
    rcases rest with _ | ⟨⟨⟩, _ | ⟨⟨⟩, more⟩⟩
    all_goals first
      | exact hs.elim
      | exact ⟨_, _, List.mem_cons_self .., hs⟩
      | exact ⟨_, _, List.mem_cons_of_mem _ (List.mem_cons_self ..), hs⟩
  obtain ⟨op, holds, hm, hh⟩ := hheld
  exact List.any_eq_true.2 ⟨_, hm, List.contains_iff_mem.2 hh⟩

theorem sits_thread {steps steps' : List (Step Action)} {given given' : Option Value} {results : List Result}
    (hs : (Frame.thread steps given results).Sits rest) (results' : List Result) :
    (Frame.thread steps' given' results').Sits rest := by
  rcases rest with _ | ⟨⟨⟩, _⟩ <;> exact hs

/-- The next emission of a batch is on a signal that the step holds. -/
theorem sits_batch_cons {ch : ChannelId} {v : Value} {todo : List (ChannelId × Value)} {entries : Nat}
    (hs : (Frame.batch ((ch, v) :: todo) entries).Sits rest) (e : Emission) (he : e.source = .channel ch) :
    (Frame.emission e).Sits (.batch todo entries :: rest) ∧ (Frame.batch todo entries).Sits rest := by
  rcases rest with _ | ⟨⟨⟩, _⟩
  case cons.step _ op holds =>
    have hmem : ∀ x ∈ (ch, v) :: todo, Ref.channel x.1 ∈ holds := hs
    refine ⟨?_, fun x hx => hmem x (List.mem_cons_of_mem _ hx)⟩
    show e.source.ref ∈ holds
    rw [he]
    exact hmem (ch, v) (List.mem_cons_self ..)
  all_goals exact hs.elim

/-- Below a handler one can go on. -/
theorem fits_resume_of_sits {h : Handling} (hs : (Frame.handling h).Sits rest) : Focus.resume.Fits rest := by
  rcases rest with _ | ⟨⟨⟩, _⟩ <;> trivial

/-- Below whatever answers a step one can take its answer. -/
theorem fits_ended_of_sits {f : Frame} (hs : f.Sits rest) (hstep : ∀ op holds, f ≠ .step op holds)
    (hhandling : ∀ h, f ≠ .handling h) (r : Result) : (Focus.ended r).Fits rest := by
  cases f with
  | step op holds => exact absurd rfl (hstep op holds)
  | handling h => exact absurd rfl (hhandling h)
  | emission e => rcases rest with _ | ⟨⟨⟩, _⟩ <;> trivial
  | call => rcases rest with _ | ⟨⟨⟩, _⟩ <;> trivial
  | thread steps given results => rcases rest with _ | ⟨⟨⟩, _⟩ <;> trivial
  | batch todo entries => rcases rest with _ | ⟨⟨⟩, _⟩ <;> trivial

end Sits

end Conduit.Scenario
