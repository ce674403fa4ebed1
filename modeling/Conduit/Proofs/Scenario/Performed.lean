/-
What it means that a step has been performed (`Performed`): it leads on from a well-formed bench, what it holds
while it runs on is there, and an emission begins at the places connected now, on a signal that the step
holds. Names that a step looks up stand for what is there, and to give another name to that changes
nothing else.
-/
import Conduit.Proofs.Scenario.Begun
import Conduit.Proofs.Scenario.Leads

namespace Conduit.Scenario

open World (License)

/-- Whether a step is allowed. -/
def Action.Within (may : License) : Action → Prop
  | .register _ _ => may.registering
  | .unregister _ _ => may.registering
  | .subscribe _ _ _ _ => may.subscribing
  | .disconnectAt _ _ => may.disconnecting
  | _ => True

/-- What has to be held for a signal to stay. -/
def Source.ref : Source → Ref
  | .channel ch => .channel ch
  | .signal g => .signal g

namespace Bench

/-- The signal that is emitted on. -/
def sourceSignal? (b : Bench) : Source → Option (Signal Slot)
  | .channel ch => b.world.signal? ch
  | .signal g => b.signal? g

/-- The places that are connected at a signal now. -/
def placesOf (b : Bench) (source : Source) : List (Place Slot) := ((b.sourceSignal? source).map (·.places)).getD []

/-- An emission that is at its beginning. -/
structure Begins (b : Bench) (e : Emission) : Prop where
  snapshot : e.snapshot = b.placesOf e.source
  remaining : e.remaining = e.snapshot
  called : e.called = 0
  messages : e.messages = []

/-- What a step that has begun comes to, from the bench `b` on: it holds what is there, and holds the
signals that it emits on. -/
structure Performed (may : License) (pins : Ref → Bool) (b : Bench) (r : Begun) : Prop where
  leads : Leads may pins pins b r.bench
  lives : ∀ x ∈ r.holds, r.bench.world.Lives x
  emission : ∀ e, r.outcome = .emission e → r.bench.Begins e ∧ e.source.ref ∈ r.holds
  batch : ∀ todo, r.outcome = .batch todo → ∀ x ∈ todo, Ref.channel x.1 ∈ r.holds

variable {may : License} {pins : Ref → Bool} {b b' : Bench} {r : Begun}

/-- A step that emits nothing. -/
theorem performed_silent (h : Leads may pins pins b r.bench) (lives : ∀ x ∈ r.holds, r.bench.world.Lives x)
    (he : ∀ e, r.outcome ≠ .emission e) (ht : ∀ todo, r.outcome ≠ .batch todo) : Performed may pins b r :=
  ⟨h, lives, fun e hout => absurd hout (he e), fun todo hout => absurd hout (ht todo)⟩

theorem performed_answered {res : Result} (h : Leads may pins pins b b') (hr : b'.answered res = .ok r) :
    Performed may pins b r := by
  cases hr
  exact performed_silent h (fun _ hx => absurd hx List.not_mem_nil) nofun nofun

/-! ## Looking things up -/

section Lookup

variable {α : Type} {t : Names α} {f : Field} {name : String} {a : α}

theorem lookup_of_find? (h : t.find? name = some a) : lookup t (some name) = .ok (name, a) := by
  unfold lookup field
  dsimp only [bind, Except.bind]
  rw [h]
  rfl

theorem lookup_of_find?_none (h : t.find? name = none) : lookup t (some name) = .error .noSuchName := by
  unfold lookup field
  dsimp only [bind, Except.bind]
  rw [h]
  rfl

theorem mem_of_lookup (h : lookup t f = .ok (name, a)) : (name, a) ∈ t := Names.mem_of_find? (find?_of_lookup h)

end Lookup

/-- A handle with a name stands for something. -/
theorem WellFormed.knows (hb : WellFormed pins b) {name : String} {h : Handle} (hm : (name, h) ∈ b.handles) :
    b.world.Knows h :=
  hb.scene.upheld (.handle h) (keeps_handle.2 (.inr (.inl ⟨name, hm⟩)))

theorem WellFormed.componentAlive (hb : WellFormed pins b) {name : String} {c : ComponentId}
    (hm : (name, c) ∈ b.components) : b.world.componentAlive c = true :=
  hb.scene.upheld (.component c) (keeps_component.2 (.inr ⟨name, hm⟩))

/-- An endpoint's channel lives, and so does whatever else its name stands for. -/
theorem endpoint_lives (hb : WellFormed pins b) {f : Field} {p : Endpoint} (h : b.endpoint f = .ok p) :
    (∀ x ∈ p.holds, b.world.Lives x) ∧ .channel p.channel ∈ p.holds := by
  obtain ⟨n, hch, hholds⟩ | ⟨component, position, n, c, hc, hch, hholds⟩ := endpoint_ok h
  · rw [hholds]
    refine ⟨fun x hx => ?_, List.mem_singleton_self _⟩
    obtain rfl := List.mem_singleton.1 hx
    exact hb.scene.upheld (.channel p.channel) (keeps_channel.2 (.inr ⟨n, mem_of_lookup hch⟩))
  · have hlives := hb.componentAlive (mem_of_lookup hc)
    obtain ⟨comp, hcomp, hpos⟩ := Option.bind_eq_some_iff.1 hch
    -- The channel belongs to a component that has a name, and lives as long as that does.
    have hmem : p.channel ∈ comp.inputs ++ comp.outputs := by
      unfold channelOf? at hpos
      split at hpos
      · obtain ⟨i, -, hi⟩ := Option.bind_eq_some_iff.1 hpos
        exact List.mem_append_left _ (List.mem_of_getElem? hi)
      · obtain ⟨i, -, hi⟩ := Option.bind_eq_some_iff.1 hpos
        exact List.mem_append_right _ (List.mem_of_getElem? hi)
      · cases hpos
    obtain ⟨q, hq⟩ := hb.scene.owned.listed c comp p.channel hcomp hmem
    rw [hholds]
    refine ⟨fun x hx => ?_, List.mem_cons_self ..⟩
    rcases List.mem_cons.1 hx with rfl | hx
    · exact hb.scene.owned.spared p.channel c q hq hlives
    · obtain rfl := List.mem_singleton.1 hx
      exact hlives

theorem endpoint_channelAlive (hb : WellFormed pins b) {f : Field} {p : Endpoint} (h : b.endpoint f = .ok p) :
    b.world.channelAlive p.channel = true :=
  (endpoint_lives hb h).1 _ (endpoint_lives hb h).2

/-! ## Naming what is there -/

/-- One more thing is kept, and that is there. -/
theorem leads_of_name {x : Ref} (h : ∀ r, b'.keeps pins r = true ↔ b.keeps pins r = true ∨ r = x) (hx : b.world.Lives x)
    (hw : b'.world = b.world) (hs : b'.signalStates = b.signalStates) (ho : b.Ordered → b'.Ordered) :
    Leads may pins pins b b' :=
  leads_of_gain hw hs ho (fun r hr => (h r).2 (.inl hr)) fun r hr => ((h r).1 hr).imp_right (by rintro rfl; exact hx)

section Enter

variable {name : String} (r : Ref)

theorem keeps_enter_component {c : ComponentId} (hn : b.components.uses name = false) :
    keeps { b with components := b.components.enter name c } pins r = true ↔
      b.keeps pins r = true ∨ r = .component c := by
  cases r with
  | component k =>
    simp only [keeps_component, Names.exists_mem_enter_iff hn, Ref.component.injEq]
    tauto
  | channel ch => exact (or_iff_left nofun).symm
  | handle h => exact (or_iff_left nofun).symm
  | signal g => exact (or_iff_left nofun).symm
  | callback k => exact (or_iff_left nofun).symm

theorem keeps_enter_channel {ch : ChannelId} (hn : b.channels.uses name = false) :
    keeps { b with channels := b.channels.enter name ch } pins r = true ↔
      b.keeps pins r = true ∨ r = .channel ch := by
  cases r with
  | channel k =>
    simp only [keeps_channel, Names.exists_mem_enter_iff hn, Ref.channel.injEq]
    tauto
  | component c => exact (or_iff_left nofun).symm
  | handle h => exact (or_iff_left nofun).symm
  | signal g => exact (or_iff_left nofun).symm
  | callback k => exact (or_iff_left nofun).symm

theorem keeps_enter_handle {h : Handle} (hn : b.handles.uses name = false) :
    keeps { b with handles := b.handles.enter name h } pins r = true ↔ b.keeps pins r = true ∨ r = .handle h := by
  cases r with
  | handle k =>
    simp only [keeps_handle, Names.exists_mem_enter_iff hn, Ref.handle.injEq]
    constructor
    · rintro (hp | (rfl | hn) | hr)
      exacts [.inl (.inl hp), .inr rfl, .inl (.inr (.inl hn)), .inl (.inr (.inr hr))]
    · rintro ((hp | hn | hr) | rfl)
      exacts [.inl hp, .inr (.inl (.inr hn)), .inr (.inr hr), .inr (.inl (.inl rfl))]
  | component c => exact (or_iff_left nofun).symm
  | channel ch => exact (or_iff_left nofun).symm
  | signal g => exact (or_iff_left nofun).symm
  | callback k => exact (or_iff_left nofun).symm

end Enter

theorem leads_enter_component {name : String} {c : ComponentId} (hn : b.components.uses name = false)
    (hc : b.world.componentAlive c = true) :
    Leads may pins pins b { b with components := b.components.enter name c } :=
  leads_of_name (x := .component c) (keeps_enter_component · hn) hc rfl rfl fun ho => ⟨ho.handles, ho.registries⟩

theorem leads_enter_channel {name : String} {ch : ChannelId} (hn : b.channels.uses name = false)
    (hch : b.world.channelAlive ch = true) :
    Leads may pins pins b { b with channels := b.channels.enter name ch } :=
  leads_of_name (x := .channel ch) (keeps_enter_channel · hn) hch rfl rfl fun ho => ⟨ho.handles, ho.registries⟩

theorem leads_enter_handle {name : String} {h : Handle} (hn : b.handles.uses name = false) (hh : b.world.Knows h) :
    Leads may pins pins b { b with handles := b.handles.enter name h } :=
  leads_of_name (x := .handle h) (keeps_enter_handle · hn) hh rfl rfl fun ho => ⟨ho.handles.enter, ho.registries⟩

end Bench

end Conduit.Scenario
