/-
Names of components and channels, and who lives by them. A step changes them in few ways: something is
created, named once more, or let go under one of its names and then looked after at once. Everything
else leaves components and channels to themselves, and holds only components that have a name
(`Tends`). So what lives on a bench is what is held there (`Tended`).
-/
import Conduit.Proofs.Scenario.Perform
import Conduit.Proofs.Wiring.Ties

namespace Conduit.Scenario

open World (SameLives Prompt)

namespace Bench

/-- Nothing lives on the bench that is not held, and the tables of components and channels are in order. -/
structure Tended (pins : Ref → Bool) (b : Bench) : Prop where
  prompt : Prompt [] (b.scene pins)
  components : Names.Ordered b.components
  channels : Names.Ordered b.channels

/-- What a step that has begun does about components and channels: the bench stays tended, and only
components that had a name or are new have one, and are held. -/
structure Tends (pins : Ref → Bool) (b : Bench) (r : Begun) : Prop where
  tended : b.Tended pins → r.bench.Tended pins
  named : ∀ n k, (n, k) ∈ r.bench.components → (∃ m, (m, k) ∈ b.components) ∨ k = b.world.components.length
  holds : ∀ k, Ref.component k ∈ r.holds → ∃ n, (n, k) ∈ b.components

variable {pins pins' : Ref → Bool} {b b' : Bench} {r : Begun}

/-! ## Steps that leave components and channels alone -/

/-- The same components and channels live and have the same names, and no fewer are pinned. -/
theorem Tended.congr (h : b.Tended pins) (hw : SameLives b'.world b.world) (hc : b'.components = b.components)
    (hch : b'.channels = b.channels) (hpins : ∀ r, pins r = true → pins' r = true) : b'.Tended pins' where
  prompt := by
    refine h.prompt.congr hw (fun c hk => ?_) fun ch hk => ?_
    · exact keeps_component.2 (hc ▸ (keeps_component.1 hk).imp_left (hpins _))
    · exact keeps_channel.2 (hch ▸ (keeps_channel.1 hk).imp_left (hpins _))
  components := by rw [hc]; exact h.components
  channels := by rw [hch]; exact h.channels

theorem Tended.of_world {w : World} (h : b.Tended pins) (hw : SameLives w b.world) :
    Tended pins { b with world := w } :=
  h.congr hw rfl rfl fun _ hr => hr

theorem tends_of_same {r : Begun} (hw : SameLives r.bench.world b.world) (hc : r.bench.components = b.components)
    (hch : r.bench.channels = b.channels) (hh : ∀ k, Ref.component k ∈ r.holds → ∃ n, (n, k) ∈ b.components) :
    Tends pins b r :=
  ⟨fun h => h.congr hw hc hch fun _ hr => hr, fun n _ hm => .inl ⟨n, hc ▸ hm⟩, hh⟩

theorem tends_answered {res : Result} (h : b'.answered res = .ok r) (hw : SameLives b'.world b.world)
    (hc : b'.components = b.components) (hch : b'.channels = b.channels) : Tends pins b r := by
  cases h
  exact tends_of_same hw hc hch fun _ hk => absurd hk List.not_mem_nil

/-- A step that only looks. -/
theorem tends_looked {res : Result} (h : b.answered res = .ok r) : Tends pins b r :=
  tends_answered h (.refl b.world) rfl rfl

/-- An endpoint's name stands for a component that has a name, if for any. -/
theorem endpoint_named {f : Field} {p : Endpoint} (h : b.endpoint f = .ok p) (k : ComponentId)
    (hk : Ref.component k ∈ p.holds) : ∃ n, (n, k) ∈ b.components := by
  obtain ⟨n, -, hholds⟩ | ⟨component, position, n, c, hc, -, hholds⟩ := endpoint_ok h
  · rw [hholds] at hk
    exact Ref.noConfusion (List.mem_singleton.1 hk)
  · rw [hholds] at hk
    rcases List.mem_cons.1 hk with he | hk
    · cases he
    · cases List.mem_singleton.1 hk
      exact ⟨n, mem_of_lookup hc⟩

/-! ## Components and channels -/

/-- Names come to stand for something more. -/
theorem Tended.gain (h : b.Tended pins) (hw : b'.world = b.world)
    (hc : ∀ k, (∃ n, (n, k) ∈ b.components) → ∃ n, (n, k) ∈ b'.components)
    (hch : ∀ k, (∃ n, (n, k) ∈ b.channels) → ∃ n, (n, k) ∈ b'.channels) (hoc : Names.Ordered b'.components)
    (hoch : Names.Ordered b'.channels) : b'.Tended pins where
  prompt := by
    refine h.prompt.congr (by rw [hw]; exact .refl b.world) (fun c hk => ?_) fun ch hk => ?_
    · exact keeps_component.2 ((keeps_component.1 hk).imp_right (hc c))
    · exact keeps_channel.2 ((keeps_channel.1 hk).imp_right (hch ch))
  components := hoc
  channels := hoch

theorem tended_furnish (h : b.Tended pins) {name : String} (hn : b.components.uses name = false) (layout : Layout)
    (rules : Rules) : (b.furnish name layout rules).Tended pins where
  prompt := by
    refine h.prompt.create name layout (fun c hk => ?_) (fun ch hk => hk) ?_
    · exact keeps_component.2 ((keeps_component.1 hk).imp_right fun hm => (Names.exists_mem_enter_iff hn).2 (.inr hm))
    · exact keeps_component.2 (.inr ⟨name, Names.mem_enter_self b.components⟩)
  components := h.components.enter
  channels := h.channels

theorem create_tends {name layout : Field} {rules : Rules} (h : b.create name layout rules = .ok r) :
    Tends pins b r := by
  obtain ⟨n, l, hn, -, h⟩ := create_ok h
  cases h
  refine ⟨fun ht => tended_furnish ht (uses_of_fresh hn) l rules, fun m k hm => ?_,
    fun _ hk => absurd hk List.not_mem_nil⟩
  rcases (Names.exists_mem_enter_iff (uses_of_fresh hn)).1 ⟨m, hm⟩ with hk | hk
  · exact .inr hk
  · exact .inl hk

theorem keep_tends {name component : Field} (h : b.keep name component = .ok r) : Tends pins b r := by
  obtain ⟨n, hn, h⟩ := bind_ok h
  obtain ⟨⟨m, c⟩, hc, h⟩ := bind_ok h
  cases h
  refine ⟨fun ht => ht.gain rfl (fun k hk => (Names.exists_mem_enter_iff (uses_of_fresh hn)).2 (.inr hk))
    (fun k hk => hk) ht.components.enter ht.channels, fun x k hm => .inl ?_, fun _ hk => absurd hk List.not_mem_nil⟩
  rcases (Names.exists_mem_enter_iff (uses_of_fresh hn)).1 ⟨x, hm⟩ with rfl | hk
  · exact ⟨m, mem_of_lookup hc⟩
  · exact hk

theorem hold_tends {name endpoint : Field} (h : b.hold name endpoint = .ok r) : Tends pins b r := by
  obtain ⟨g, -, h⟩ := bind_ok h
  obtain ⟨p, -, h⟩ := bind_ok h
  obtain ⟨n, hn, h⟩ := bind_ok h
  cases h
  exact ⟨fun ht => ht.gain rfl (fun k hk => hk)
      (fun k hk => (Names.exists_mem_enter_iff (uses_of_fresh hn)).2 (.inr hk)) ht.components ht.channels.enter,
    fun x k hm => .inl ⟨x, hm⟩, fun _ hk => absurd hk List.not_mem_nil⟩

/-- What a name stood for has other names, or was let go with it. -/
theorem mem_strike_or_eq {α : Type} {t : Names α} (ht : t.Ordered) {name n : String} {a x : α} (ha : (name, a) ∈ t)
    (hx : (n, x) ∈ t) : (∃ m, (m, x) ∈ t.strike name) ∨ x = a := by
  by_cases hn : n = name
  · subst hn
    exact .inr (ht.unique hx ha)
  · exact .inl ⟨n, Names.mem_strike.2 ⟨hx, hn⟩⟩

theorem drop_tends {name : Field} (h : b.drop pins name = .ok r) : Tends pins b r := by
  obtain ⟨⟨n, c⟩, hc, h⟩ := bind_ok h
  cases h
  refine ⟨fun ht => ⟨?_, ht.components.strike n, ht.channels⟩, fun x k hm => .inl ⟨x, (Names.mem_strike.1 hm).1⟩,
    fun _ hk => absurd hk List.not_mem_nil⟩
  let struck : Bench := { b with components := b.components.strike n }
  have hlost : Prompt [.component c] ⟨b.world, struck.keeps pins⟩ :=
    ht.prompt.lose (fun k hk => ?_) fun ch hk => .inl hk
  · exact hlost.settle
  rcases keeps_component.1 hk with hp | ⟨m, hm⟩
  · exact .inl (keeps_component.2 (.inl hp))
  · rcases mem_strike_or_eq ht.components (mem_of_lookup hc) hm with hk | rfl
    · exact .inl (keeps_component.2 (.inr hk))
    · exact .inr (List.mem_singleton_self _)

theorem release_tends {name : Field} (h : b.release pins name = .ok r) : Tends pins b r := by
  obtain ⟨⟨n, ch⟩, hch, h⟩ := bind_ok h
  cases h
  refine ⟨fun ht => ⟨?_, ht.components, ht.channels.strike n⟩, fun x k hm => .inl ⟨x, hm⟩,
    fun _ hk => absurd hk List.not_mem_nil⟩
  let struck : Bench := { b with channels := b.channels.strike n }
  have hlost : Prompt [.channel ch] ⟨b.world, struck.keeps pins⟩ := ht.prompt.lose (fun c hk => .inl hk) fun k hk => ?_
  · exact hlost.settle
  rcases keeps_channel.1 hk with hp | ⟨m, hm⟩
  · exact .inl (keeps_channel.2 (.inl hp))
  · rcases mem_strike_or_eq ht.channels (mem_of_lookup hch) hm with hk | rfl
    · exact .inl (keeps_channel.2 (.inr hk))
    · exact .inr (List.mem_singleton_self _)

/-! ## Subscriptions and registries -/

theorem subscribe_tends {output input name : Field} {via : Option Field}
    (h : b.subscribe output input name via = .ok r) :
    Tends pins b r := by
  obtain ⟨out, inp, -, -, hin, h | ⟨s, w, hs, -, h⟩⟩ := subscribe_cases h
  · exact tends_looked h
  · obtain ⟨p, slot, g, g', hmade⟩ := World.subscribed_of_subscribe? hin hs
    exact tends_answered h (.subscribe hmade) rfl rfl

theorem close_tends {handle : Field} (h : b.close handle = .ok r) : Tends pins b r := by
  obtain ⟨⟨n, a⟩, -, h⟩ := bind_ok h
  exact tends_answered h (.closeHandle b.world a) rfl rfl

theorem dropHandle_tends {handle : Field} (h : b.dropHandle pins handle = .ok r) : Tends pins b r := by
  obtain ⟨⟨n, a⟩, -, h⟩ := bind_ok h
  exact tends_answered h (.letGo b.world _ a) rfl rfl

/-- To change a registry by hand may close a subscription, and ends nothing else. -/
theorem sameLives_of_registering {frames : List Frame} {given : Option Value} {action : Action}
    (h : b.perform frames given action = .ok r) (ha : ¬ action.Within .orderly) : SameLives r.bench.world b.world ∧
      r.bench.components = b.components ∧ r.bench.channels = b.channels ∧ r.holds = [] := by
  cases action with
  | register endpoint handle =>
    obtain ⟨p, n, a, -, -, h⟩ := register_ok h
    cases h
    exact ⟨.of_sameParts (World.sameParts_register ..), rfl, rfl, rfl⟩
  | unregister endpoint handle =>
    obtain ⟨p, n, a, -, -, h⟩ := unregister_ok h
    cases h
    exact ⟨.unregister b.world _ p.channel (b.world.handleId a), rfl, rfl, rfl⟩
  | _ => exact absurd trivial ha

theorem sameLives_settle_handles (pins : Ref → Bool) (hs : List Handle) : ∀ b : Bench,
    SameLives (hs.foldl (fun b h => b.settle pins (.handle h)) b).world b.world ∧
      (hs.foldl (fun b h => b.settle pins (.handle h)) b).components = b.components ∧
      (hs.foldl (fun b h => b.settle pins (.handle h)) b).channels = b.channels := by
  induction hs with
  | nil => exact fun b => ⟨.refl b.world, rfl, rfl⟩
  | cons h hs ih =>
    intro b
    obtain ⟨hw, hc, hch⟩ := ih (b.settle pins (.handle h))
    exact ⟨hw.trans (.letGo b.world _ h), hc, hch⟩

theorem dropRegistry_tends {registry : Field} (h : b.dropRegistry pins registry = .ok r) : Tends pins b r := by
  obtain ⟨⟨n, reg⟩, -, h⟩ := bind_ok h
  obtain ⟨hw, hc, hch⟩ := sameLives_settle_handles pins reg.handles { b with registries := b.registries.strike n }
  exact tends_answered h hw hc hch

theorem removeFrom_tends {registry handle : Field} (h : b.removeFrom pins registry handle = .ok r) :
    Tends pins b r := by
  obtain ⟨n, reg, m, a, -, -, ⟨-, h⟩ | ⟨removed, -, h⟩⟩ := removeFrom_ok h
  · exact tends_looked h
  · exact tends_answered h (.letGo b.world _ removed) rfl rfl

theorem closeAll_tends {registry : Field} (h : b.closeAll registry = .ok r) : Tends pins b r := by
  obtain ⟨⟨n, reg⟩, -, h⟩ := bind_ok h
  exact tends_answered h (.closeAll reg.handles b.world) rfl rfl

/-! ## Signals and callbacks -/

theorem newSignal_tends {name kind : Field} (h : b.newSignal name kind = .ok r) : Tends pins b r := by
  obtain ⟨n, cardinality, -, -, h⟩ := newSignal_ok h
  exact tends_answered h (.refl b.world) rfl rfl

theorem connect_tends {signal callback connection : Field} (h : b.connect signal callback connection = .ok r) :
    Tends pins b r := by
  obtain ⟨g, s, m, c, n, -, -, -, ⟨-, h⟩ | ⟨id, s', -, h⟩⟩ := connect_ok h
  · exact tends_looked h
  · exact tends_answered h (.refl b.world) rfl rfl

theorem disconnect_tends {signal connection : Field} (h : b.disconnect signal connection = .ok r) : Tends pins b r := by
  obtain ⟨g, s, n, id, -, -, ⟨s', -, h⟩ | ⟨-, h⟩⟩ := disconnect_ok h
  · exact tends_answered h (.refl b.world) rfl rfl
  · exact tends_answered h (.of_sameParts (.note b.world _)) rfl rfl

theorem disconnectAt_tends {endpoint connection : Field} (h : b.disconnectAt endpoint connection = .ok r) :
    Tends pins b r := by
  obtain ⟨p, n, id, -, -, h⟩ := disconnectAt_ok h
  exact tends_answered h (.of_sameParts (World.sameParts_disconnectByHand ..)) rfl rfl

/-! ## Any step -/

/-- A step that has no answer yet changes nothing, and the components that it holds meanwhile have names. -/
theorem runs_tends {frames : List Frame} {given : Option Value} {action : Action}
    (h : b.perform frames given action = .ok r) (ha : action.Runs) : Tends pins b r := by
  have hbench := (runs_ok h ha).1
  -- The bench is the same, so only what the step holds is to be looked at: any component among it has a name.
  suffices hholds : ∀ k, Ref.component k ∈ r.holds → ∃ n, (n, k) ∈ b.components by
    exact tends_of_same (by rw [hbench]; exact .refl b.world) (by rw [hbench]) (by rw [hbench]) hholds
  cases action with
  | publish _ _ | tryPublish _ _ =>
    obtain ⟨p, c, v, hp, -, -, -, rfl⟩ := publish_ok h
    exact endpoint_named hp
  | callSlot endpoint value =>
    obtain ⟨p, c, v, hp, -, -, -, rfl⟩ := callSlot_ok h
    exact endpoint_named hp
  | panic kind text =>
    obtain ⟨p, rfl⟩ := panic_ok h
    exact fun _ hk => absurd hk List.not_mem_nil
  | callCallback callback value =>
    obtain ⟨n, c, v, -, -, rfl⟩ := callCallback_ok h
    exact fun k hk => Ref.noConfusion (List.mem_singleton.1 hk)
  | emit signal value numbered =>
    obtain ⟨g, s, v, -, -, rfl⟩ := emit_ok h
    exact fun k hk => Ref.noConfusion (List.mem_singleton.1 hk)
  | thread steps =>
    obtain ⟨todo, -, rfl⟩ := thread_ok h
    exact fun _ hk => absurd hk List.not_mem_nil
  | parallel endpoints count =>
    obtain ⟨ps, n, hps, -, rfl⟩ := parallel_ok h
    intro k hk
    obtain ⟨p, hp, hk⟩ := List.mem_flatMap.1 hk
    obtain ⟨f, hf⟩ := hps p hp
    exact endpoint_named hf k hk
  | _ => cases ha

/-- Whatever a step is, the bench stays tended. -/
theorem perform_tends {frames : List Frame} {given : Option Value} {action : Action}
    (h : b.perform frames given action = .ok r) : Tends (pinned frames) b r := by
  cases action with
  | inspect _ | group _ | handleInfo _ | downcast _ _ _ | has _ _ | contains _ _ | registryInfo _ | callbackInfo _
  | signalInfo _ =>
    obtain ⟨res, h, -⟩ := looks_ok h trivial
    exact tends_looked h
  | publish _ _ | tryPublish _ _ | callSlot _ _ | panic _ _ | callCallback _ _ | emit _ _ _ | thread _
  | parallel _ _ => exact runs_tends h trivial
  -- Components and channels get and lose names.
  | create name layout rules => exact create_tends h
  | keep name component => exact keep_tends h
  | drop name => exact drop_tends h
  | hold name endpoint => exact hold_tends h
  | release name => exact release_tends h
  -- Subscriptions begin and end, and no component or channel with them.
  | subscribe output input name via => exact subscribe_tends h
  | close handle => exact close_tends h
  | dropHandle handle => exact dropHandle_tends h
  | register _ _ | unregister _ _ =>
    obtain ⟨hw, hc, hch, hh⟩ := sameLives_of_registering h id
    exact tends_of_same hw hc hch fun k hk => absurd hk (by rw [hh]; exact List.not_mem_nil)
  | forge like name =>
    obtain ⟨⟨n, a⟩, -, h⟩ := bind_ok h
    obtain ⟨m, -, h⟩ := bind_ok h
    exact tends_answered h ⟨rfl, fun _ => rfl, fun _ => rfl⟩ rfl rfl
  | dropRegistry registry => exact dropRegistry_tends h
  | removeFrom registry handle => exact removeFrom_tends h
  | closeAll registry => exact closeAll_tends h
  -- The wiring stays as it is, or all but its signals.
  | newRegistry _ | newCallback _ _ | dropSignal _ | dropCallback _ =>
    obtain ⟨x, -, h⟩ := bind_ok h
    exact tends_answered h (.refl b.world) rfl rfl
  | cloneHandle _ _ | addTo _ _ =>
    obtain ⟨x, -, h⟩ := bind_ok h
    obtain ⟨y, -, h⟩ := bind_ok h
    exact tends_answered h (.refl b.world) rfl rfl
  | newSignal name kind => exact newSignal_tends h
  | connect signal callback connection => exact connect_tends h
  | disconnect signal connection => exact disconnect_tends h
  | disconnectAt endpoint connection => exact disconnectAt_tends h
  | unknown => cases h

end Bench

end Conduit.Scenario
