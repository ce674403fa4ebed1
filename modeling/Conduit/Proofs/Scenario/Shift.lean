/-
What moves do to the frames. Only the frame on top is ever taken off or replaced, but for a thread,
which takes the answer of the step above it. Emissions are put on the frames when they begin, and a call
is made by the one on top.
-/
import Conduit.Proofs.Scenario.Run

namespace Conduit.Scenario

open World (License)

namespace Config

variable {may : License} {c d : Config}

/-- How a move changes the frames: only the one on top goes, or a thread below it takes its answer. An
emission that is put on the frames is at its beginning, and one that makes a call was on top before. -/
structure Shift (c d : Config) : Prop where
  below : ∀ f rest, c.frames = f :: rest → (∃ new, d.frames = new ++ rest) ∨
    ∃ steps given results results' more, rest = .thread steps given results :: more ∧
      d.frames = .thread steps given results' :: more
  begins : ∀ e base, d.frames = .emission e :: base → c.frames.length ≤ base.length →
    d.focus = .resume ∧ d.bench.Begins e
  calls : ∀ slot v e base, d.focus = .call slot v → d.frames = .emission e :: base →
    ∃ e', c.frames = .emission e' :: base

theorem shift_same (h : d.frames = c.frames) (hfocus : ∀ slot v, d.focus ≠ .call slot v) : Shift c d where
  below f rest hf := .inl ⟨[f], h.trans hf⟩
  begins e base hd hl := by
    rw [← h, hd, List.length_cons] at hl
    omega
  calls slot v e base hf hd := absurd hf (hfocus slot v)

theorem shift_over (new : List Frame) (h : d.frames = new ++ c.frames)
    (begins : ∀ e rest, new = .emission e :: rest → d.focus = .resume ∧ d.bench.Begins e)
    (hnew : new ≠ []) : Shift c d where
  below f rest hf := .inl ⟨new ++ [f], by rw [h, hf, List.append_assoc]; rfl⟩
  begins e base hd hl := by
    rw [h] at hd
    rcases new with _ | ⟨f, rest⟩
    · exact absurd rfl hnew
    · cases hd
      exact begins e rest rfl
  calls slot v e base hf hd := by
    rw [h] at hd
    rcases new with _ | ⟨f, rest⟩
    · exact absurd rfl hnew
    · cases hd
      rw [(begins e rest rfl).1] at hf
      cases hf

theorem shift_pop {f : Frame} {rest : List Frame} (hc : c.frames = f :: rest) (hd : d.frames = rest)
    (hfocus : ∀ slot v, d.focus ≠ .call slot v) : Shift c d where
  below g more hg := by
    rw [hc] at hg
    cases hg
    exact .inl ⟨[], hd⟩
  begins e base he hl := by
    rw [he] at hd
    rw [hc, ← hd, List.length_cons, List.length_cons] at hl
    omega
  calls slot v e base hf he := absurd hf (hfocus slot v)

theorem shift_swap {f f' : Frame} {rest : List Frame} (hc : c.frames = f :: rest) (hd : d.frames = f' :: rest)
    (hcalls : ∀ slot v e, d.focus = .call slot v → f' = .emission e → ∃ e', f = .emission e') : Shift c d where
  below g more hg := by
    rw [hc] at hg
    cases hg
    exact .inl ⟨[f'], hd⟩
  begins e base he hl := by
    rw [he] at hd
    cases hd
    rw [hc, List.length_cons] at hl
    omega
  calls slot v e base hf he := by
    rw [he] at hd
    cases hd
    obtain ⟨e', rfl⟩ := hcalls slot v e hf rfl
    exact ⟨e', hc⟩

theorem start_shift (hc : WellFormed c) (step : Step Action) (given : Option Value) : Shift c (c.start step given) := by
  unfold start
  split
  · exact shift_over [_] rfl nofun nofun
  · rename_i bench outcome holds hperform
    have hp : Bench.Performed .any (pinned c.frames) c.bench ⟨bench, outcome, holds⟩ :=
      Bench.perform_performed hc.bench step.action.within_any hperform
    cases outcome with
    | answer r => exact shift_over [_] rfl nofun nofun
    | emission e =>
      refine shift_over [_, _] rfl (fun e' rest he => ?_) nofun
      cases he
      exact ⟨rfl, (hp.emission e rfl).1⟩
    | call slot v => exact shift_over [_, _] rfl nofun nofun
    | panic p => exact shift_over [_] rfl nofun nofun
    | thread steps => exact shift_over [_, _] rfl nofun nofun
    | batch todo => exact shift_over [_, _] rfl nofun nofun

theorem call_shift (c : Config) (slot : Slot) (value : Value) : Shift c (c.call slot value) := by
  unfold call
  split
  · exact shift_over [_] rfl nofun nofun
  · exact shift_same rfl nofun

theorem resume_shift (c : Config) : Shift c c.resume := by
  unfold resume
  split
  · rename_i h rest hframes
    unfold handle
    split
    · exact shift_swap hframes rfl nofun
    · split
      · exact shift_pop hframes rfl nofun
      · dsimp only
        split
        · exact shift_swap hframes rfl nofun
        · exact shift_swap hframes rfl nofun
  · rename_i e rest hframes
    unfold visit
    split
    · exact shift_pop hframes rfl nofun
    · split
      · exact shift_swap hframes rfl fun _ _ _ _ _ => ⟨e, rfl⟩
      · exact shift_swap hframes rfl nofun
  · rename_i hframes
    exact shift_pop hframes rfl nofun
  · rename_i hframes
    exact shift_pop hframes rfl nofun
  · rename_i hframes
    exact shift_swap hframes rfl nofun
  · rename_i hframes
    exact shift_pop hframes rfl nofun
  · rename_i ch v todo kept rest hframes
    -- The next emission of a batch is put on top of what is left of the batch.
    refine ⟨fun f more hf => .inl ?_, fun e base he hl => ?_, nofun⟩
    · rw [hframes] at hf
      cases hf
      exact ⟨[_, _], rfl⟩
    · cases he
      exact ⟨rfl, Bench.begins_emissionAt c.bench .plain ch v⟩
  · exact shift_same rfl nofun
  · exact shift_same rfl nofun

theorem answer_shift (c : Config) (r : Result) : Shift c (c.answer r) := by
  unfold answer
  split
  · rename_i op holds rest hframes
    dsimp only
    split
    · exact shift_pop hframes rfl nofun
    · rename_i steps given results more
      -- The step goes, and the thread below it takes the answer.
      refine ⟨fun f below hf => .inr ?_, fun e base he hl => ?_, nofun⟩
      · rw [hframes] at hf
        cases hf
        exact ⟨steps, given, results, _, more, rfl, rfl⟩
      · cases he
    · exact shift_pop hframes rfl nofun
  · exact shift_same rfl nofun
  · exact shift_same rfl nofun

theorem unwind_shift (c : Config) (p : Panic) : Shift c (c.unwind p) := by
  unfold unwind
  split
  · exact shift_same rfl nofun
  · rename_i hframes
    exact shift_pop hframes rfl nofun
  · rename_i hframes
    exact shift_pop hframes rfl nofun
  · rename_i hframes
    split
    · exact shift_swap hframes rfl nofun
    · exact shift_pop hframes rfl nofun
  · rename_i hframes
    exact shift_swap hframes rfl nofun
  · rename_i hframes
    exact shift_pop hframes rfl nofun
  · rename_i hframes
    exact shift_pop hframes rfl nofun

theorem Move.shift (hc : WellFormed c) (h : Move may c d) : Shift c d := by
  cases h with
  | tick _ =>
    unfold Config.tick
    split
    · exact start_shift hc _ _
    · exact call_shift c _ _
    · exact resume_shift c
    · exact answer_shift c _
    · exact unwind_shift c _
    · rename_i r hf
      refine shift_same rfl fun slot v hcall => ?_
      rw [hf] at hcall
      cases hcall
  | act _ _ step => exact shift_same rfl nofun
  | next hf step => exact shift_same (frames_of_finished hc hf).symm nofun
  | furnish hf _ _ _ =>
    refine shift_same rfl fun slot v hcall => ?_
    have hcall : c.focus = .call slot v := hcall
    rcases hf with ⟨-, hf⟩ | ⟨r, hf⟩
    · rw [hf] at hcall
      cases hcall
    · rw [hf] at hcall
      cases hcall

/-- What lies below an emission stays there, and the emission with it, as long as something is above. -/
theorem Move.frames_above (hc : WellFormed c) (h : Move may c d) {f : Frame} {upper base : List Frame} {e : Emission}
    (hf : c.frames = f :: (upper ++ .emission e :: base)) : ∃ upper', d.frames = upper' ++ .emission e :: base := by
  rcases (h.shift hc).below _ _ hf with ⟨new, hd⟩ | ⟨steps, given, results, results', more, hrest, hd⟩
  · exact ⟨new ++ upper, by rw [hd, List.append_assoc]⟩
  · rcases upper with _ | ⟨g, upper⟩
    · cases hrest
    · cases hrest
      exact ⟨.thread steps given results' :: upper, hd⟩

/-- With an emission on top, it goes on, or a call of it is made, or a panic comes out of one. -/
theorem Move.at_emission_of_fits (hfits : c.focus.Fits c.frames) (h : Move may c d) {e : Emission} {base : List Frame}
    (hf : c.frames = .emission e :: base) :
    (c.focus = .resume ∧ d = c.visit e base) ∨ (∃ slot v, c.focus = .call slot v ∧ d = c.call slot v) ∨
      ∃ p, c.focus = .panicking p ∧ d = c.unwind p := by
  rw [hf] at hfits
  -- With an emission on top there is nothing else to do than to resume, to call, or to panic.
  cases h with
  | tick _ =>
    unfold Config.tick
    split
    · rename_i hfocus
      rw [hfocus] at hfits
      exact hfits.elim
    · rename_i slot v hfocus
      exact .inr (.inl ⟨slot, v, hfocus, rfl⟩)
    · rename_i hfocus
      refine .inl ⟨hfocus, ?_⟩
      rw [resume, hf]
    · rename_i hfocus
      rw [hfocus] at hfits
      exact hfits.elim
    · rename_i p hfocus
      exact .inr (.inr ⟨p, hfocus, rfl⟩)
    · rename_i hfocus
      rw [hfocus] at hfits
      exact hfits.elim
  | act hframes _ step =>
    rw [hf] at hframes
    cases hframes
  | next hfocus step =>
    rw [hfocus] at hfits
    exact hfits.elim
  | furnish hfocus _ _ _ =>
    rcases hfocus with ⟨⟨k, rest, hframes⟩, -⟩ | ⟨r, hfocus⟩
    · rw [hf] at hframes
      cases hframes
    · rw [hfocus] at hfits
      exact hfits.elim

theorem Move.at_emission (hc : WellFormed c) (h : Move may c d) {e : Emission} {base : List Frame}
    (hf : c.frames = .emission e :: base) :
    (c.focus = .resume ∧ d = c.visit e base) ∨ (∃ slot v, c.focus = .call slot v ∧ d = c.call slot v) ∨
      ∃ p, c.focus = .panicking p ∧ d = c.unwind p :=
  h.at_emission_of_fits hc.fits hf

end Config

end Conduit.Scenario
