/-
Where panics show. A panic that is raised is on its way after that, and a report is the answer of the step that an
emission was; no other answer is one. On its flight a panic comes to no emission but the one that catches it
(`texts_flight`), which has one more text to report then (`Underway.credits`).
-/
import Conduit.Proofs.Scenario.Answers
import Conduit.Proofs.Scenario.Balance
import Conduit.Proofs.Scenario.Reports
import Conduit.Proofs.Scenario.Unwinding

namespace Conduit.Scenario.Config

variable {c d : Config} {p : Panic}

/-! ## Where raises and reports show -/

theorem failed?_ended {r : Result} (h : ∀ total messages, r ≠ .slotsFailed total messages) :
    (Focus.ended r).failed? = none := by
  cases r with
  | slotsFailed total messages => exact absurd rfl (h total messages)
  | _ => rfl

/-- A step that has begun does not answer with failed slots at once, -/
theorem start_failed? (c : Config) (step : Step Action) (given : Option Value) :
    (c.start step given).focus.failed? = none := by
  unfold start
  split
  · rfl
  · rename_i bench outcome holds hperform
    cases outcome with
    | answer r =>
      exact failed?_ended fun total messages hr =>
        Bench.perform_plain hperform total messages (by rw [hr])
    | _ => rfl

/-- but it may raise a panic. -/
theorem start_panic? {step : Step Action} {given : Option Value} (hf : c.focus = .start step given) :
    (c.start step given).focus.panic? = c.raised? := by
  rw [raised?, hf, start]
  dsimp only
  rcases c.bench.perform c.frames given step.action with why | ⟨bench, outcome, holds⟩
  · rfl
  · cases outcome <;> rfl

theorem call_plain (c : Config) (slot : Slot) (v : Value) : (c.call slot v).focus.Plain := by
  unfold call
  split <;> exact ⟨rfl, rfl⟩

theorem answer_plain (c : Config) (r : Result) : (c.answer r).focus.Plain := by
  unfold answer
  split
  · dsimp only
    split <;> exact ⟨rfl, rfl⟩
  · exact ⟨rfl, rfl⟩
  · exact ⟨rfl, rfl⟩

theorem unwind_failed? (c : Config) (p : Panic) : (c.unwind p).focus.failed? = none := by
  unfold unwind
  split
  case h_4 => split <;> rfl
  all_goals rfl

theorem handle_plain (c : Config) (h : Handling) (rest : List Frame) : (c.handle h rest).focus.Plain := by
  unfold handle
  split
  · exact ⟨rfl, rfl⟩
  · split
    · exact ⟨rfl, rfl⟩
    · dsimp only
      split <;> exact ⟨rfl, rfl⟩

theorem visit_panic? (c : Config) (e : Emission) (rest : List Frame) : (c.visit e rest).focus.panic? = none := by
  unfold visit
  split
  · rfl
  · split <;> rfl

/-- Only an emission reports, and it does so when it ends. -/
theorem resume_failed? (hf : c.focus = .resume) :
    c.resume.focus.failed? = c.report? ∧ c.resume.focus.panic? = none := by
  rw [report?, hf]
  rcases hframes : c.frames with _ | ⟨f, rest⟩
  · rw [resume, hframes]
    exact ⟨rfl, rfl⟩
  · -- Only an emission that ends reports a failure.
    cases f with
    | handling h =>
      rw [resume, hframes]
      exact handle_plain c h rest
    | emission e =>
      rw [resume, hframes]
      refine ⟨?_, visit_panic? c e rest⟩
      dsimp only
      unfold visit
      rcases e.remaining with _ | ⟨place, remaining⟩
      · dsimp only
        rcases e.result <;> rfl
      · dsimp only
        split <;> rfl
    | thread steps given results =>
      rw [resume, hframes]
      cases steps <;> exact ⟨rfl, rfl⟩
    | batch todo kept =>
      rw [resume, hframes]
      cases todo <;> exact ⟨rfl, rfl⟩
    | _ =>
      rw [resume, hframes]
      exact ⟨rfl, rfl⟩

/-- A report is the answer of the step that the emission was, and no other answer is a report. -/
theorem report?_eq (c : Config) : c.report? = c.tick.focus.failed? := by
  unfold tick
  rcases hf : c.focus with ⟨step, given⟩ | ⟨slot, v⟩ | _ | r | p | r <;> dsimp only
  case resume => exact (resume_failed? hf).1.symm
  all_goals rw [report?, hf]
  case start => exact (start_failed? c step given).symm
  case call => exact (call_plain c slot v).1.symm
  case ended => exact (answer_plain c r).1.symm
  case panicking => exact (unwind_failed? c p).symm
  case finished => rfl

/-- A panic that has not been on its way before is one that is raised. -/
theorem raised?_eq (c : Config) : c.raised? = if c.focus.panic?.isSome then none else c.tick.focus.panic? := by
  unfold tick
  rcases hf : c.focus with ⟨step, given⟩ | ⟨slot, v⟩ | _ | r | p | r <;> dsimp only [Focus.panic?, Option.isSome]
  case start => exact (start_panic? hf).symm
  all_goals rw [raised?, hf]
  case call => exact (call_plain c slot v).2.symm
  case resume => exact (resume_failed? hf).2.symm
  case ended => exact (answer_plain c r).2.symm
  case panicking => rfl
  case finished => rfl

/-! ## Whose report it is -/

section Flight

variable {e : Emission} {base : List Frame} {b d' : Config} {before later : List Config}

theorem texts_append (depth : Nat) (l l' : List Config) : texts depth (l ++ l') = texts depth l ++ texts depth l' := by
  rw [texts, List.filterMap_append, List.map_append]
  rfl

theorem texts_singleton_of_ne {depth : Nat} (h : c.frames.length ≠ depth + 1) : texts depth [c] = [] := by
  have hno : c.caught? depth = none := by
    rw [Option.eq_none_iff_forall_ne_some]
    intro q hq
    obtain ⟨-, e, rest, hframes, hl⟩ := caught?_eq_some_iff.1 hq
    exact h (by rw [hframes, List.length_cons, hl])
  rw [texts, List.filterMap_cons, hno]
  rfl

/-- On its flight a panic comes to no emission below the frames that it ends but the one that catches it. -/
theorem texts_flight {depth : Nat} : ∀ {doomed : List Frame} {c : Config}, c.doomed = doomed → c.focus = .panicking p →
    depth < c.spared.length → (∀ f rest, c.spared = f :: rest → rest.length = depth → ∃ e, f = .emission e) →
    texts depth c.flight = if c.spared.length = depth + 1 then [p.message] else []
  -- By induction on the frames that the panic ends. Without any, it has landed.
  | [], c, hd, hf, hdepth, hhead => by
    have hframes : c.frames = c.spared := by rw [← doomed_append_spared c, hd, List.nil_append]
    rw [flight_of_doomed_nil hd]
    split
    · rename_i hl
      obtain ⟨f, rest, hrest⟩ := List.exists_cons_of_length_pos (show 0 < c.spared.length by omega)
      have hdeep : rest.length = depth := by
        rw [hrest, List.length_cons] at hl
        omega
      obtain ⟨e, rfl⟩ := hhead f rest hrest hdeep
      have hcaught : c.caught? depth = some p := caught?_eq_some_iff.2 ⟨hf, e, rest, hframes.trans hrest, hdeep⟩
      rw [texts, List.filterMap_cons, hcaught]
      rfl
    · rename_i hl
      exact texts_singleton_of_ne (hframes ▸ hl)
  | f :: more, c, hd, hf, hdepth, hhead => by
    obtain ⟨hfocus, hdoomed, hspared, hflight⟩ := flight_cons hf hd
    have hhere : texts depth [c] = [] := texts_singleton_of_ne (by
      rw [← doomed_append_spared c, hd, List.length_append, List.length_cons]
      omega)
    rw [← hspared] at hdepth hhead
    rw [hflight, ← List.singleton_append, texts_append, hhere, List.nil_append,
      texts_flight hdoomed hfocus hdepth hhead, hspared]

/-- Where frames that are spared reach down to an emission, the emission is the one that catches the panic. -/
theorem Underway.catcher (h : Underway base e b before c) {f : Frame} {rest : List Frame} (hs : c.spared = f :: rest)
    (hl : rest.length = base.length) : ∃ e', f = .emission e' ∧ e.policy = .collecting := by
  obtain ⟨e', hfollows⟩ := h.follows
  obtain ⟨upper, hframes⟩ := hfollows.frames
  rw [← doomed_append_spared c, hs] at hframes
  obtain ⟨-, hsame⟩ := List.append_inj' hframes (by rw [List.length_cons, List.length_cons, hl])
  cases hsame
  have hcatches : e'.policy = .collecting := by simpa [Frame.catches] using catches_of_spared hs
  exact ⟨e', rfl, hfollows.policy.symm.trans hcatches⟩

/-- A panic adds its text to what the emission that catches it has to report, and nothing to any other. -/
theorem Underway.credits (h : Underway base e b (before ++ c :: later) d) (hf : c.focus = .panicking p)
    (hlow : base.length < c.spared.length) (hm : Move .any d d') (hend : d'.frames.length ≤ base.length) :
    texts base.length (before ++ c :: later) = texts base.length before ++
      (if c.spared.length = base.length + 1 then [p.message] else []) ++
        texts base.length (later.drop c.doomed.length) := by
  obtain ⟨rest, hrest⟩ := h.flight_prefix hm hend rfl hf hlow
  have hafter : rest = later.drop c.doomed.length := by
    -- A flight consists of where the panic is raised and one configuration for each frame that it ends.
    have hdrop := congrArg (List.drop (c.doomed.length + 1)) hrest
    rw [List.drop_succ_cons, List.drop_left' (by rw [flight, List.length_map, List.length_range])] at hdrop
    exact hdrop
  have hhead : ∀ f rest, c.spared = f :: rest → rest.length = base.length → ∃ e, f = .emission e := fun f rest hs hl =>
    ((h.split rfl).1.catcher hs hl).imp fun _ h => h.1
  rw [← hrest, texts_append, texts_append, texts_flight rfl hf hlow hhead, hafter, List.append_assoc]

end Flight

end Conduit.Scenario.Config
