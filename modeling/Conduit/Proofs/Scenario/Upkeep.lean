/-
Nothing lives that is not held, in every configuration of every history: frames that end let go what
they pinned and look after it at once, whichever way they end (`Reachable.nothingUnheld`). Held from outside is
a component that has a name, or that a step under way holds; such references are only made from others
(`Move.outside`).
-/
import Conduit.Proofs.Scenario.Prompt
import Conduit.Proofs.Scenario.Shift

namespace Conduit.Scenario

open World (License SameLives Prompt)
open Bench (Tended)

/-! ## Frames that come and go -/

section Frames

variable {b : Bench} {rest : List Frame}

theorem tended_note {pins : Ref → Bool} (h : b.Tended pins) (e : Entry) : (b.note e).Tended pins :=
  h.of_world (.of_sameParts (.note b.world e))

/-- A frame that is put on top may pin more. -/
theorem tended_push (h : b.Tended (pinned rest)) (f : Frame) : b.Tended (pinned (f :: rest)) :=
  h.congr (.refl b.world) rfl rfl fun r hr => by
    show (f.pins r || pinned rest r) = true
    rw [hr, Bool.or_true]

/-- A frame that pins nothing may come and go. -/
theorem tended_free {f : Frame} (hf : ∀ r, f.pins r = false) :
    b.Tended (pinned (f :: rest)) ↔ b.Tended (pinned rest) := by
  rw [pinned_of_free hf]

/-- A frame comes to pin one thing less, which is looked after. -/
theorem tended_pop {f f' : Frame} (r : Ref) (lost : ∀ x, f.pins x = true → f'.pins x = true ∨ x = r)
    (h : b.Tended (pinned (f :: rest))) : (b.settle (pinned (f' :: rest)) r).Tended (pinned (f' :: rest)) where
  prompt := by
    have hkeeps : ∀ x, b.keeps (pinned (f :: rest)) x = true →
        b.keeps (pinned (f' :: rest)) x = true ∨ x ∈ [r] := fun x hx => by
      rw [keeps_push, Bool.or_eq_true] at hx ⊢
      rcases hx with hx | hx
      · exact (lost x hx).imp .inl List.mem_singleton.2
      · exact .inl (.inr hx)
    have hlost : Prompt [r] ⟨b.world, b.keeps (pinned (f' :: rest))⟩ :=
      h.prompt.lose (fun c => hkeeps (.component c)) fun ch => hkeeps (.channel ch)
    exact hlost.settle
  components := h.components
  channels := h.channels

theorem tended_letGo (op : Option String) : ∀ (holds : List Ref) {b : Bench},
    b.Tended (pinned (.step op holds :: rest)) → (b.letGo rest holds).Tended (pinned rest)
  | [], _, h => (tended_free fun _ => rfl).1 h
  | r :: more, b, h => by
    refine tended_letGo op more (b := b.settle (pinned (.step op more :: rest)) r) (tended_pop r (fun x hx => ?_) h)
    rcases List.mem_cons.1 (List.contains_iff_mem.1 hx) with he | hm
    · exact .inr he
    · exact .inl (List.contains_iff_mem.2 hm)

theorem tended_leave {h : Handling} (hb : b.Tended (pinned (.handling h :: rest))) :
    (b.leave rest h.slot).Tended (pinned rest) := by
  rcases hs : h.slot with ⟨c, p⟩ | c
  · have hgo : (b.settle (pinned (.call :: rest)) (.component c)).Tended (pinned (.call :: rest)) := by
      refine tended_pop (.component c) (fun x hx => .inr ?_) hb
      simpa [Frame.pins, hs] using hx
    rw [pinned_of_free (f := .call) fun r => rfl] at hgo
    exact hgo
  · refine (tended_free fun r => ?_).1 hb
    simp only [Frame.pins, hs]

theorem tended_useRule {pins : Ref → Bool} (h : b.Tended pins) (slot : Slot) (i : Nat) :
    (b.useRule slot i).Tended pins := by
  cases slot with
  | handler c p => exact h.congr (.refl b.world) rfl rfl fun _ hr => hr
  | callback c => exact h.congr (.refl b.world) rfl rfl fun _ hr => hr

end Frames

namespace Config

variable {may : License} {c d : Config}

/-- Nothing lives in the configuration that is not held. -/
def NothingUnheld (c : Config) : Prop := c.bench.Tended (pinned c.frames)

theorem start_nothingUnheld (h : c.NothingUnheld) (step : Step Action) (given : Option Value) :
    (c.start step given).NothingUnheld := by
  unfold start
  split
  · exact tended_push h _
  · rename_i bench outcome holds hperform
    have hb : bench.Tended (pinned c.frames) := (Bench.perform_tends hperform).tended h
    have hstep : bench.Tended (pinned (.step step.op holds :: c.frames)) := tended_push hb _
    cases outcome with
    | answer r => exact hstep
    | emission e => exact tended_push hstep _
    | call slot v => exact tended_push hstep _
    | panic p => exact hstep
    | thread steps => exact tended_push hstep _
    | batch todo => exact tended_push hstep _

theorem call_nothingUnheld (h : c.NothingUnheld) (slot : Slot) (value : Value) : (c.call slot value).NothingUnheld := by
  unfold call
  split
  · exact tended_push (tended_note h _) _
  · exact tended_note h _

theorem handle_nothingUnheld {k : Handling} {rest : List Frame} (h : c.NothingUnheld)
    (hf : c.frames = .handling k :: rest) : (c.handle k rest).NothingUnheld := by
  have hb : c.bench.Tended (pinned (.handling k :: rest)) := hf ▸ h
  have hsame : ∀ {b : Bench} (k' : Handling), k'.slot = k.slot → b.Tended (pinned (.handling k :: rest)) →
      b.Tended (pinned (.handling k' :: rest)) := fun k' hs ht => by
    rwa [pinned_handling hs]
  unfold handle
  split
  · exact hsame _ rfl hb
  · split
    · exact tended_leave hb
    · dsimp only
      split
      · exact hsame _ rfl (tended_useRule hb _ _)
      · exact hsame _ rfl hb

theorem visit_nothingUnheld {e : Emission} {rest : List Frame} (h : c.NothingUnheld)
    (hf : c.frames = .emission e :: rest) : (c.visit e rest).NothingUnheld := by
  have hb : c.bench.Tended (pinned (.emission e :: rest)) := hf ▸ h
  rw [tended_free fun _ => rfl] at hb
  unfold visit
  split
  · unfold NothingUnheld Emission.close
    dsimp only
    split
    · exact tended_note hb _
    · exact hb
  · split
    · refine (tended_free fun _ => rfl).2 ?_
      dsimp only
      split
      · exact tended_note hb _
      · exact hb
    · exact (tended_free fun _ => rfl).2 hb

theorem resume_nothingUnheld (h : c.NothingUnheld) : c.resume.NothingUnheld := by
  -- A frame that pins nothing can go without anything being unheld.
  have hoff : ∀ {f : Frame} {rest : List Frame}, c.frames = f :: rest → (∀ r, f.pins r = false) →
      c.bench.Tended (pinned rest) :=
    fun hframes hf => (tended_free hf).1 (hframes ▸ h)
  unfold resume
  split
  · rename_i k rest hframes
    exact handle_nothingUnheld h hframes
  · rename_i e rest hframes
    exact visit_nothingUnheld h hframes
  · rename_i rest hframes
    exact hoff hframes fun _ => rfl
  · rename_i given results rest hframes
    exact hoff hframes fun _ => rfl
  · rename_i step steps given results rest hframes
    exact (tended_free fun _ => rfl).2 (hoff hframes fun _ => rfl)
  · rename_i kept rest hframes
    exact (hoff hframes fun _ => rfl).of_world (.of_sameParts ⟨rfl, rfl, rfl, fun _ => rfl, fun _ => rfl⟩)
  · rename_i ch v todo kept rest hframes
    exact (tended_free fun _ => rfl).2 ((tended_free fun _ => rfl).2 (hoff hframes fun _ => rfl))
  · exact h
  · exact h

theorem answer_nothingUnheld (h : c.NothingUnheld) (r : Result) : (c.answer r).NothingUnheld := by
  unfold answer
  split
  · rename_i op holds rest hframes
    have hgo : (c.bench.letGo rest holds).Tended (pinned rest) := tended_letGo op holds (hframes ▸ h)
    dsimp only
    split
    · exact tended_note hgo _
    · exact (tended_free fun _ => rfl).2 ((tended_free fun _ => rfl).1 hgo)
    · exact hgo
  · exact h
  · exact h

theorem unwind_nothingUnheld (h : c.NothingUnheld) (p : Panic) : (c.unwind p).NothingUnheld := by
  have hoff : ∀ {f : Frame} {rest : List Frame}, c.frames = f :: rest → (∀ r, f.pins r = false) →
      c.bench.Tended (pinned rest) :=
    fun hframes hf => (tended_free hf).1 (hframes ▸ h)
  unfold unwind
  split
  · exact h
  · rename_i op holds rest hframes
    exact tended_letGo op holds (hframes ▸ h)
  · rename_i k rest hframes
    exact tended_leave (hframes ▸ h)
  · rename_i e rest hframes
    split
    · exact (tended_free fun _ => rfl).2 (hoff hframes fun _ => rfl)
    · exact hoff hframes fun _ => rfl
  · rename_i hframes
    exact (tended_free fun _ => rfl).2 (hoff hframes fun _ => rfl)
  · rename_i hframes
    exact hoff hframes fun _ => rfl
  · rename_i hframes
    exact hoff hframes fun _ => rfl

/-- After every move, nothing lives that is not held. -/
theorem Move.nothingUnheld (hs : WellFormed c) (h : Move may c d) (hc : c.NothingUnheld) : d.NothingUnheld := by
  cases h with
  | tick _ =>
    unfold Config.tick
    split
    · exact start_nothingUnheld hc _ _
    · exact call_nothingUnheld hc _ _
    · exact resume_nothingUnheld hc
    · exact answer_nothingUnheld hc _
    · exact unwind_nothingUnheld hc _
    · exact hc
  | act _ _ step => exact hc
  | next hf step =>
    have hb : c.bench.Tended (pinned []) := frames_of_finished hs hf ▸ hc
    exact hb.of_world (.of_sameParts ⟨rfl, rfl, rfl, fun _ => rfl, fun _ => rfl⟩)
  | furnish _ hn layout rules => exact Bench.tended_furnish hc hn layout rules

theorem nothingUnheld_empty : empty.NothingUnheld where
  prompt := ⟨fun ch c p h => by simp [Bench.scene, empty, World.slotAt?] at h,
    fun c h => by simp [Bench.scene, empty, World.componentAlive] at h,
    fun ch c p h => by simp [Bench.scene, empty, World.slotAt?] at h⟩
  components := List.Pairwise.nil
  channels := List.Pairwise.nil

theorem Reachable.nothingUnheld (h : Reachable may c) : c.NothingUnheld := by
  induction h with
  | refl => exact nothingUnheld_empty
  | tail hm h ih => exact h.nothingUnheld (Reachable.wellFormed hm) ih

end Config

end Conduit.Scenario
