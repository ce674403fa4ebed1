/-
What steps and moves leave aside. Names of components are struck out by one kind of step only, signals of
the bench are made and changed by three, and registries of their own by five; all others leave these as they
are, whatever else they do. Between steps a bench changes only where frames end and let something go (`Moved`).
-/
import Conduit.Proofs.Scenario.Closing

namespace Conduit.Scenario

open World (License)

/-- Whether a step may make or change a signal of the bench. -/
def Action.Signals : Action → Prop
  | .newSignal _ _ => True
  | .connect _ _ _ => True
  | .disconnect _ _ => True
  | _ => False

/-- Whether a step may make, change or drop a registry of its own. -/
def Action.Files : Action → Prop
  | .newRegistry _ => True
  | .dropRegistry _ => True
  | .addTo _ _ => True
  | .removeFrom _ _ => True
  | .closeAll _ => True
  | _ => False

namespace Bench

/-- What `a` leaves aside on its way from `b` to `b'`. -/
structure Aside (a : Action) (b b' : Bench) : Prop where
  /-- A component with a name has one after it, unless the step takes a name away. -/
  named : (∀ name, a ≠ .drop name) → ∀ k, (∃ n, (n, k) ∈ b.components) → ∃ n, (n, k) ∈ b'.components
  signals : ¬ a.Signals → b'.signalStates = b.signalStates
  registries : ¬ a.Files → b'.registries = b.registries

variable {a : Action} {b b' : Bench} {r : Begun}

theorem aside_of_eq (hc : b'.components = b.components) (hs : b'.signalStates = b.signalStates)
    (hr : b'.registries = b.registries) : Aside a b b' :=
  ⟨fun _ _ hk => hc ▸ hk, fun _ => hs, fun _ => hr⟩

/-- A step about signals. -/
theorem aside_signals (ha : a.Signals) (hc : b'.components = b.components) (hr : b'.registries = b.registries) :
    Aside a b b' :=
  ⟨fun _ _ hk => hc ▸ hk, fun hno => absurd ha hno, fun _ => hr⟩

/-- A step about registries. -/
theorem aside_files (ha : a.Files) (hc : b'.components = b.components) (hs : b'.signalStates = b.signalStates) :
    Aside a b b' :=
  ⟨fun _ _ hk => hc ▸ hk, fun _ => hs, fun hno => absurd ha hno⟩

/-- One more name for a component. -/
theorem aside_enter {name : String} {c : ComponentId} (hn : b.components.uses name = false)
    (hc : b'.components = b.components.enter name c) (hs : b'.signalStates = b.signalStates)
    (hr : b'.registries = b.registries) : Aside a b b' :=
  ⟨fun _ _ hk => hc ▸ (Names.exists_mem_enter_iff hn).2 (.inr hk), fun _ => hs, fun _ => hr⟩

theorem aside_answered {res : Result} (h : b'.answered res = .ok r) (ha : Aside a b b') : Aside a b r.bench := by
  cases h
  exact ha

theorem files_aside {frames : List Frame} {given : Option Value} (h : b.perform frames given a = .ok r)
    (ha : a.Files) : Aside a b r.bench := by
  cases a with
  | newRegistry _ | closeAll _ =>
    obtain ⟨x, -, h⟩ := bind_ok h
    exact aside_answered h (aside_files trivial rfl rfl)
  | dropRegistry registry =>
    obtain ⟨⟨n, reg⟩, -, h⟩ := bind_ok h
    dsimp only at h
    rw [settle_handles] at h
    exact aside_answered h (aside_files trivial rfl rfl)
  | addTo registry handle =>
    obtain ⟨⟨n, reg⟩, -, h⟩ := bind_ok h
    obtain ⟨⟨m, k⟩, -, h⟩ := bind_ok h
    exact aside_answered h (aside_files trivial rfl rfl)
  | removeFrom registry handle =>
    obtain ⟨n, reg, m, k, -, -, ⟨-, h⟩ | ⟨removed, -, h⟩⟩ := removeFrom_ok h
    · exact aside_answered h (aside_of_eq rfl rfl rfl)
    · exact aside_answered h (aside_files trivial rfl rfl)
  | _ => cases ha

theorem signals_aside {frames : List Frame} {given : Option Value} (h : b.perform frames given a = .ok r)
    (ha : a.Signals) : Aside a b r.bench := by
  cases a with
  | newSignal name kind =>
    obtain ⟨n, cardinality, -, -, h⟩ := newSignal_ok h
    exact aside_answered h (aside_signals trivial rfl rfl)
  | connect signal callback connection =>
    obtain ⟨g, s, m, c, n, -, -, -, ⟨-, h⟩ | ⟨id, s', -, h⟩⟩ := connect_ok h
    · exact aside_answered h (aside_of_eq rfl rfl rfl)
    · exact aside_answered h (aside_signals trivial rfl rfl)
  | disconnect signal connection =>
    obtain ⟨g, s, n, id, -, -, ⟨s', -, h⟩ | ⟨-, h⟩⟩ := disconnect_ok h
    · exact aside_answered h (aside_signals trivial rfl rfl)
    · exact aside_answered h (aside_of_eq rfl rfl rfl)
  | _ => cases ha

/-- Whatever a step is, it leaves aside what it has to. -/
theorem perform_aside {frames : List Frame} {given : Option Value} (h : b.perform frames given a = .ok r) :
    Aside a b r.bench := by
  cases a with
  -- Those that only look or have no answer yet leave the whole bench aside.
  | inspect _ | group _ | handleInfo _ | downcast _ _ _ | has _ _ | contains _ _ | registryInfo _ | callbackInfo _
  | signalInfo _ =>
    obtain ⟨res, h, -⟩ := looks_ok h trivial
    exact aside_answered h (aside_of_eq rfl rfl rfl)
  | publish _ _ | tryPublish _ _ | callSlot _ _ | panic _ _ | callCallback _ _ | emit _ _ _ | thread _
  | parallel _ _ =>
    rw [(runs_ok h trivial).1]
    exact aside_of_eq rfl rfl rfl
  -- Three kinds change what is told of here: components get and lose names, registries and signals change.
  | create name layout rules =>
    obtain ⟨n, l, hn, -, h⟩ := create_ok h
    exact aside_answered h (aside_enter (uses_of_fresh hn) rfl rfl rfl)
  | keep name component =>
    obtain ⟨n, hn, h⟩ := bind_ok h
    obtain ⟨⟨m, c⟩, -, h⟩ := bind_ok h
    exact aside_answered h (aside_enter (uses_of_fresh hn) rfl rfl rfl)
  | drop name =>
    obtain ⟨⟨n, c⟩, -, h⟩ := bind_ok h
    exact aside_answered h ⟨fun hno => absurd rfl (hno name), fun _ => rfl, fun _ => rfl⟩
  | newRegistry _ | dropRegistry _ | addTo _ _ | removeFrom _ _ | closeAll _ => exact files_aside h trivial
  | newSignal _ _ | connect _ _ _ | disconnect _ _ => exact signals_aside h trivial
  -- The others change the wiring, or the names of other things.
  | release _ | close _ | dropHandle _ | dropSignal _ | dropCallback _ | newCallback _ _ =>
    obtain ⟨x, -, h⟩ := bind_ok h
    exact aside_answered h (aside_of_eq rfl rfl rfl)
  | cloneHandle _ _ | forge _ _ =>
    obtain ⟨x, -, h⟩ := bind_ok h
    obtain ⟨m, -, h⟩ := bind_ok h
    exact aside_answered h (aside_of_eq rfl rfl rfl)
  | hold name endpoint =>
    obtain ⟨g, -, h⟩ := bind_ok h
    obtain ⟨p, -, h⟩ := bind_ok h
    obtain ⟨n, -, h⟩ := bind_ok h
    exact aside_answered h (aside_of_eq rfl rfl rfl)
  | subscribe output input name via =>
    obtain ⟨out, inp, -, -, -, h | ⟨s, w, -, -, h⟩⟩ := subscribe_cases h
    · exact aside_answered h (aside_of_eq rfl rfl rfl)
    · exact aside_answered h (aside_of_eq rfl rfl rfl)
  | register endpoint handle =>
    obtain ⟨p, n, k, -, -, h⟩ := register_ok h
    exact aside_answered h (aside_of_eq rfl rfl rfl)
  | unregister endpoint handle =>
    obtain ⟨p, n, k, -, -, h⟩ := unregister_ok h
    exact aside_answered h (aside_of_eq rfl rfl rfl)
  | disconnectAt endpoint connection =>
    obtain ⟨p, n, id, -, -, h⟩ := disconnectAt_ok h
    exact aside_answered h (aside_of_eq rfl rfl rfl)
  | unknown => cases h

/-! ## Between steps -/

/-- In `b'` all is as in `b`, but for the log and for how often rules may fire. -/
structure Unmoved (b b' : Bench) : Prop where
  world : ∃ log, b'.world = { b.world with log }
  components : b'.components = b.components
  channels : b'.channels = b.channels
  handles : b'.handles = b.handles
  registries : b'.registries = b.registries
  signals : b'.signals = b.signals
  callbacks : b'.callbacks = b.callbacks
  connections : b'.connections = b.connections
  signalStates : b'.signalStates = b.signalStates

theorem unmoved_log (b : Bench) (log : List Entry) : Unmoved b { b with world := { b.world with log } } :=
  ⟨⟨log, rfl⟩, rfl, rfl, rfl, rfl, rfl, rfl, rfl, rfl⟩

theorem Unmoved.refl (b : Bench) : Unmoved b b := unmoved_log b b.world.log

theorem unmoved_note (b : Bench) (e : Entry) : Unmoved b (b.note e) := unmoved_log b _

theorem unmoved_useRule (b : Bench) (slot : Slot) (i : Nat) : Unmoved b (b.useRule slot i) := by
  cases slot with
  | handler c p => exact ⟨⟨b.world.log, rfl⟩, rfl, rfl, rfl, rfl, rfl, rfl, rfl, rfl⟩
  | callback c => exact ⟨⟨b.world.log, rfl⟩, rfl, rfl, rfl, rfl, rfl, rfl, rfl, rfl⟩

theorem Unmoved.keeps (h : Unmoved b b') (pins : Ref → Bool) (r : Ref) : b'.keeps pins r = b.keeps pins r := by
  obtain ⟨-, hc, hch, hh, hr, hs, hcb, -, -⟩ := h
  cases r <;> simp [Bench.keeps, *]

/-- Whatever is let go, only the wiring changes. -/
theorem letGo_world (rest : List Frame) : ∀ (holds : List Ref) (b : Bench),
    ∃ w, b.letGo rest holds = { b with world := w }
  | [], b => ⟨b.world, rfl⟩
  | _ :: more, _ => letGo_world rest more _

theorem leave_world (b : Bench) (rest : List Frame) (slot : Slot) : ∃ w, b.leave rest slot = { b with world := w } := by
  cases slot with
  | handler c p => exact ⟨_, rfl⟩
  | callback c => exact ⟨b.world, rfl⟩

end Bench

namespace Config

open Bench (Unmoved unmoved_log unmoved_note unmoved_useRule)

/-- What a move does to the bench. -/
inductive Moved (c d : Config) : Prop
  | begun {step : Step Action} {given : Option Value} {r : Begun} (hfocus : c.focus = .start step given)
      (hperform : c.bench.perform c.frames given step.action = .ok r) (hd : d = c.start step given)
  /-- A step ends, or a panic takes it off, and what it held is let go. -/
  | ended {op : Option String} {holds : List Ref} {rest : List Frame} (hframes : c.frames = .step op holds :: rest)
      (hpins : pinned d.frames = pinned rest) (hd : Unmoved (c.bench.letGo rest holds) d.bench)
  /-- A handler ends, or a panic takes it off. -/
  | left {h : Handling} {rest : List Frame} (hframes : c.frames = .handling h :: rest) (hd : d.frames = rest)
      (hb : d.bench = c.bench.leave rest h.slot)
  | furnished {name : String} {layout : Layout} {rules : Rules} (hn : c.bench.components.uses name = false)
      (hd : d = { c with bench := c.bench.furnish name layout rules })
  | unmoved (h : Unmoved c.bench d.bench)

variable {may : License} {c d : Config}

theorem moved_start {step : Step Action} {given : Option Value} (hf : c.focus = .start step given) :
    Moved c (c.start step given) := by
  rcases hperform : c.bench.perform c.frames given step.action with why | r
  · apply Moved.unmoved
    rw [start, hperform]
    exact .refl _
  · exact .begun hf hperform rfl

theorem moved_call (c : Config) (slot : Slot) (value : Value) : Moved c (c.call slot value) := by
  apply Moved.unmoved
  unfold call
  split
  · exact unmoved_note _ _
  · exact unmoved_note _ _

theorem moved_handle {h : Handling} {rest : List Frame} (hf : c.frames = .handling h :: rest) :
    Moved c (c.handle h rest) := by
  unfold handle
  split
  · exact .unmoved (.refl _)
  · split
    · exact .left hf rfl rfl
    · dsimp only
      split
      · exact .unmoved (unmoved_useRule _ _ _)
      · exact .unmoved (.refl _)

theorem moved_visit (c : Config) (e : Emission) (rest : List Frame) : Moved c (c.visit e rest) := by
  apply Moved.unmoved
  unfold visit
  split
  · unfold Emission.close
    dsimp only
    split
    · exact unmoved_note _ _
    · exact .refl _
  · split
    · dsimp only
      split
      · exact unmoved_note _ _
      · exact .refl _
    · exact .refl _

theorem moved_resume (c : Config) : Moved c c.resume := by
  unfold resume
  split
  · rename_i h rest hf
    exact moved_handle hf
  · exact moved_visit c _ _
  · exact .unmoved (.refl _)
  · exact .unmoved (.refl _)
  · exact .unmoved (.refl _)
  · exact .unmoved (unmoved_log _ _)
  · exact .unmoved (.refl _)
  · exact .unmoved (.refl _)
  · exact .unmoved (.refl _)

theorem moved_answer (c : Config) (r : Result) : Moved c (c.answer r) := by
  unfold answer
  split
  · rename_i op holds rest hf
    dsimp only
    split
    · exact .ended hf rfl (unmoved_note _ _)
    · exact .ended hf rfl (.refl _)
    · exact .ended hf rfl (.refl _)
  · exact .unmoved (.refl _)
  · exact .unmoved (.refl _)

theorem moved_unwind (c : Config) (p : Panic) : Moved c (c.unwind p) := by
  unfold unwind
  split
  · exact .unmoved (.refl _)
  · rename_i op holds rest hf
    exact .ended hf rfl (.refl _)
  · rename_i h rest hf
    exact .left hf rfl rfl
  · split
    · exact .unmoved (.refl _)
    · exact .unmoved (.refl _)
  · exact .unmoved (.refl _)
  · exact .unmoved (.refl _)
  · exact .unmoved (.refl _)

/-- So does every move. -/
theorem Move.moved (h : Move may c d) : Moved c d := by
  cases h with
  | tick _ =>
    unfold Config.tick
    split
    · rename_i step given hf
      exact moved_start hf
    · exact moved_call c _ _
    · exact moved_resume c
    · exact moved_answer c _
    · exact moved_unwind c _
    · exact .unmoved (.refl _)
  | act _ _ step => exact .unmoved (.refl _)
  | next _ step => exact .unmoved (unmoved_log _ _)
  | furnish _ hn layout rules => exact .furnished hn rfl

end Config

end Conduit.Scenario
