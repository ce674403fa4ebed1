/-
What refers to a component. It is held from outside, by a name or by a step under way (`Referred`), and by its own
handlers at work (`Running`), and it lives just as long as one of these holds it. References from outside are made
from others only, so a component that has lost its last gets no other.
-/
import Conduit.Proofs.Scenario.Closing
import Conduit.Proofs.Scenario.Upkeep

namespace Conduit.Scenario

open World (License)

/-- Whether the frame is a handler of the component at work. -/
def Frame.Handles (k : ComponentId) : Frame → Prop
  | .handling h => ∃ p, h.slot = .handler k p
  | _ => False

namespace Config

variable {may : License} {c d : Config} {k : ComponentId}

/-- A handler of the component is at work. -/
def Running (c : Config) (k : ComponentId) : Prop := ∃ f ∈ c.frames, f.Handles k

/-- The component is held from outside: by a name, or by a step under way. -/
def Referred (c : Config) (k : ComponentId) : Prop :=
  (∃ n, (n, k) ∈ c.bench.components) ∨ ∃ op holds, .step op holds ∈ c.frames ∧ .component k ∈ holds

/-! ## Held from outside, and by handlers -/

theorem pinned_component {frames : List Frame} : pinned frames (.component k) = true ↔
    (∃ op holds, .step op holds ∈ frames ∧ .component k ∈ holds) ∨ ∃ f ∈ frames, f.Handles k := by
  unfold pinned
  rw [List.any_eq_true]
  constructor
  · rintro ⟨f, hf, hp⟩
    -- A step pins what it holds, and a handler its component.
    cases f with
    | step op holds => exact .inl ⟨op, holds, hf, List.contains_iff_mem.1 hp⟩
    | handling h =>
      refine .inr ⟨_, hf, ?_⟩
      simp only [Frame.pins] at hp
      split at hp
      · rename_i c p hs
        cases beq_iff_eq.1 hp
        exact ⟨p, hs⟩
      · cases hp
    | _ => cases hp
  · rintro (⟨op, holds, hf, hk⟩ | ⟨f, hf, hk⟩)
    · exact ⟨_, hf, List.contains_iff_mem.2 hk⟩
    · refine ⟨f, hf, ?_⟩
      cases f with
      | handling h =>
        obtain ⟨p, hs⟩ := hk
        simp [Frame.pins, hs]
      | _ => exact hk.elim

/-- A component lives just as long as it is held. -/
theorem Reachable.componentAlive_iff (h : Reachable may c) :
    c.bench.world.componentAlive k = true ↔ c.Referred k ∨ c.Running k := by
  have hkeeps : c.bench.keeps (pinned c.frames) (.component k) = true ↔ c.Referred k ∨ c.Running k := by
    rw [Bench.keeps_component, pinned_component, Referred, Running, or_comm, ← or_assoc]
  rw [← hkeeps]
  exact ⟨fun ha => (h.nothingUnheld.prompt.component k ha).resolve_right List.not_mem_nil,
    h.wellFormed.bench.scene.upheld (.component k)⟩

/-! ## References from outside are made from others -/

theorem components_letGo (rest : List Frame) :
    ∀ (holds : List Ref) (b : Bench), (b.letGo rest holds).components = b.components
  | [], _ => rfl
  | _ :: more, _ => components_letGo rest more _

theorem components_leave (b : Bench) (rest : List Frame) (slot : Slot) :
    (b.leave rest slot).components = b.components := by
  cases slot <;> rfl

theorem components_useRule (b : Bench) (slot : Slot) (i : Nat) : (b.useRule slot i).components = b.components := by
  cases slot <;> rfl

/-- The same components have names, and no steps are new. -/
structure Fewer (c d : Config) : Prop where
  components : d.bench.components = c.bench.components
  steps : ∀ op holds, .step op holds ∈ d.frames → .step op holds ∈ c.frames

theorem Fewer.referred (h : Fewer c d) (hd : d.Referred k) : c.Referred k := by
  rcases hd with ⟨n, hn⟩ | ⟨op, holds, hf, hk⟩
  · exact .inl ⟨n, h.components ▸ hn⟩
  · exact .inr ⟨op, holds, h.steps op holds hf, hk⟩

theorem fewer_same (hb : d.bench.components = c.bench.components) (hf : d.frames = c.frames) : Fewer c d :=
  ⟨hb, fun _ _ hm => hf ▸ hm⟩

theorem fewer_pop {f : Frame} {rest : List Frame} (hc : c.frames = f :: rest)
    (hb : d.bench.components = c.bench.components)
    (hd : d.frames = rest) : Fewer c d :=
  ⟨hb, fun op holds hm => by rw [hc]; exact List.mem_cons_of_mem _ (hd ▸ hm)⟩

theorem fewer_over (new rest : List Frame) (hb : d.bench.components = c.bench.components) (hd : d.frames = new ++ rest)
    (hrest : ∀ f ∈ rest, f ∈ c.frames) (hnew : ∀ op holds, .step op holds ∉ new) : Fewer c d :=
  ⟨hb, fun op holds hm => hrest _ ((List.mem_append.1 (hd ▸ hm)).resolve_left (hnew op holds))⟩

theorem fewer_swap {f f' : Frame} {rest : List Frame} (hc : c.frames = f :: rest)
    (hb : d.bench.components = c.bench.components)
    (hd : d.frames = f' :: rest) (hf : ∀ op holds, f' ≠ .step op holds) : Fewer c d :=
  fewer_over [f'] rest hb hd (fun g hg => by rw [hc]; exact List.mem_cons_of_mem _ hg)
    fun op holds hm => hf op holds (List.mem_singleton.1 hm).symm

theorem call_fewer (c : Config) (slot : Slot) (v : Value) : Fewer c (c.call slot v) := by
  unfold call
  split
  · exact fewer_over [_] c.frames rfl rfl (fun _ hf => hf)
      fun op holds hm => Frame.noConfusion (List.mem_singleton.1 hm)
  · exact fewer_same rfl rfl

theorem handle_fewer {h : Handling} {rest : List Frame} (hf : c.frames = .handling h :: rest) :
    Fewer c (c.handle h rest) := by
  unfold handle
  split
  · exact fewer_swap hf rfl rfl nofun
  · split
    · exact fewer_pop hf (components_leave ..) rfl
    · dsimp only
      split
      · exact fewer_swap hf (components_useRule ..) rfl nofun
      · exact fewer_swap hf rfl rfl nofun

theorem visit_fewer {e : Emission} {rest : List Frame} (hf : c.frames = .emission e :: rest) :
    Fewer c (c.visit e rest) := by
  unfold visit
  split
  · refine fewer_pop hf ?_ rfl
    unfold Emission.close
    dsimp only
    split <;> rfl
  · split
    · refine fewer_swap hf ?_ rfl nofun
      dsimp only
      split <;> rfl
    · exact fewer_swap hf rfl rfl nofun

theorem resume_fewer (c : Config) : Fewer c c.resume := by
  unfold resume
  split
  · rename_i h rest hf
    exact handle_fewer hf
  · rename_i e rest hf
    exact visit_fewer hf
  · rename_i hf
    exact fewer_pop hf rfl rfl
  · rename_i hf
    exact fewer_pop hf rfl rfl
  · rename_i hf
    exact fewer_swap hf rfl rfl nofun
  · rename_i hf
    exact fewer_pop hf rfl rfl
  · rename_i ch v todo kept rest hf
    refine fewer_over [_, .batch todo kept] rest rfl rfl (fun g hg => ?_) fun op holds hm => ?_
    · rw [hf]
      exact List.mem_cons_of_mem _ hg
    · rcases List.mem_cons.1 hm with hm | hm
      · cases hm
      · exact Frame.noConfusion (List.mem_singleton.1 hm)
  · exact fewer_same rfl rfl
  · exact fewer_same rfl rfl

theorem answer_fewer (c : Config) (r : Result) : Fewer c (c.answer r) := by
  unfold answer
  split
  · rename_i op holds rest hf
    dsimp only
    split
    · exact fewer_pop hf (components_letGo ..) rfl
    · rename_i steps given results more
      refine fewer_over [_] more (components_letGo ..) rfl (fun g hg => ?_)
        fun op' holds' hm => Frame.noConfusion (List.mem_singleton.1 hm)
      rw [hf]
      exact List.mem_cons_of_mem _ (List.mem_cons_of_mem _ hg)
    · exact fewer_pop hf (components_letGo ..) rfl
  · exact fewer_same rfl rfl
  · exact fewer_same rfl rfl

theorem unwind_fewer (c : Config) (p : Panic) : Fewer c (c.unwind p) := by
  unfold unwind
  split
  · exact fewer_same rfl rfl
  · rename_i hf
    exact fewer_pop hf (components_letGo ..) rfl
  · rename_i hf
    exact fewer_pop hf (components_leave ..) rfl
  · rename_i hf
    split
    · exact fewer_swap hf rfl rfl nofun
    · exact fewer_pop hf rfl rfl
  · rename_i hf
    exact fewer_swap hf rfl rfl nofun
  · rename_i hf
    exact fewer_pop hf rfl rfl
  · rename_i hf
    exact fewer_pop hf rfl rfl

/-- What frames a step begins with. -/
theorem start_frames (c : Config) (step : Step Action) (given : Option Value) :
    ∃ new, (c.start step given).frames = new ++ c.frames := by
  unfold start
  split
  · exact ⟨[_], rfl⟩
  · rename_i outcome _ _
    cases outcome with
    | answer r => exact ⟨[_], rfl⟩
    | emission e => exact ⟨[_, _], rfl⟩
    | call slot v => exact ⟨[_, _], rfl⟩
    | panic p => exact ⟨[_], rfl⟩
    | thread steps => exact ⟨[_, _], rfl⟩
    | batch todo => exact ⟨[_, _], rfl⟩

/-- The only step that a step under way may begin with is itself. -/
theorem steps_of_start {step : Step Action} {given : Option Value} {r : Begun}
    (h : c.bench.perform c.frames given step.action = .ok r) {op : Option String} {holds : List Ref}
    (hf : .step op holds ∈ (c.start step given).frames) : holds = r.holds ∨ .step op holds ∈ c.frames := by
  obtain ⟨bench, outcome, held⟩ := r
  rw [start, h] at hf
  have hstep : .step op holds ∈ Frame.step step.op held :: c.frames →
      holds = held ∨ .step op holds ∈ c.frames := fun hm => by
    rcases List.mem_cons.1 hm with he | hm
    · cases he
      exact .inl rfl
    · exact .inr hm
  cases outcome with
  | answer r => exact hstep hf
  | panic p => exact hstep hf
  | emission e => exact hstep ((List.mem_cons.1 hf).resolve_left Frame.noConfusion)
  | call slot v => exact hstep ((List.mem_cons.1 hf).resolve_left Frame.noConfusion)
  | thread steps => exact hstep ((List.mem_cons.1 hf).resolve_left Frame.noConfusion)
  | batch todo => exact hstep ((List.mem_cons.1 hf).resolve_left Frame.noConfusion)

/-- No reference from outside is made to a component that has none. -/
theorem Move.referred (hs : WellFormed c) (h : Move may c d) (hk : k < c.bench.world.components.length)
    (hd : d.Referred k) : c.Referred k := by
  cases h with
  | tick _ =>
    unfold Config.tick at hd
    split at hd
    · rename_i step given _
      -- A step that is refused holds nothing. Any other names and holds what had a name before, or what is new.
      rcases hperform : c.bench.perform c.frames given step.action with why | r
      · rw [start, hperform] at hd
        refine hd.imp_right ?_
        rintro ⟨op, holds, hf, hm⟩
        rcases List.mem_cons.1 hf with he | hf
        · cases he
          cases hm
        · exact ⟨op, holds, hf, hm⟩
      · have htends := Bench.perform_tends hperform
        rcases hd with ⟨n, hn⟩ | ⟨op, holds, hf, hm⟩
        · rw [bench_start hperform] at hn
          exact .inl ((htends.named n k hn).resolve_right (Nat.ne_of_lt hk))
        · rcases steps_of_start hperform hf with rfl | hf
          · exact .inl (htends.holds k hm)
          · exact .inr ⟨op, holds, hf, hm⟩
    · exact (call_fewer c _ _).referred hd
    · exact (resume_fewer c).referred hd
    · exact (answer_fewer c _).referred hd
    · exact (unwind_fewer c _).referred hd
    · exact hd
  | act _ _ step => exact hd
  | next hf step =>
    refine (fewer_same (d := c.next step) (c := c) rfl ?_).referred hd
    exact (frames_of_finished hs hf).symm
  | furnish _ hn layout rules =>
    rcases hd with ⟨n, hm⟩ | hd
    · rcases (Names.exists_mem_enter_iff hn).1 ⟨n, hm⟩ with rfl | hm
      · exact absurd hk (lt_irrefl _)
      · exact .inl hm
    · exact .inr hd

/-! ## In later configurations -/

/-- A component that is there stays there, and lives later on only if it does now. -/
theorem Moves.lives_before (hs : WellFormed c) (h : Moves .any c d) (hk : k < c.bench.world.components.length) :
    k < d.bench.world.components.length ∧
      (d.bench.world.componentAlive k = true → c.bench.world.componentAlive k = true) :=
  (Moves.leads hs h).changes.acts.lives_before hk

/-- What nothing refers to is not referred to again. -/
theorem Moves.referred (hs : WellFormed c) (h : Moves .any c d) (hk : k < c.bench.world.components.length)
    (hno : ¬ c.Referred k) : ¬ d.Referred k := by
  induction h with
  | refl => exact hno
  | tail hm h ih => exact fun hd => ih (h.referred (Moves.wellFormed hm hs) (Moves.lives_before hs hm hk).1 hd)

theorem Reachable.gone (hc : Reachable .any c) (hdead : c.bench.world.componentAlive k = false) :
    ¬ c.Referred k ∧ ¬ c.Running k := by
  rw [← not_or, ← hc.componentAlive_iff, hdead]
  exact Bool.false_ne_true

end Config

end Conduit.Scenario
