/-
Steps of one side on signals and callbacks. A callback is held as often on both benches, since signals of the
other side have none of its places (`references`).
-/
import Conduit.Proofs.Scenario.Alike

namespace Conduit.Scenario.Bench.Shares

variable {mine : Table → String → Bool} {strict : Prop} {ρ σ : Atlas} {n : Kind → Nat} {b u B : Bench}
  {given : Option Value} {name endpoint signal callback connection : Field} {value : Option Expr} {rules : Rules}

/-! ## Signals and callbacks -/

/-- A signal is made on its side. -/
theorem makeSignal (h : Shares mine strict ρ σ n b u B) {m : String} (hm : mine .signals m = true)
    (cardinality : Cardinality) :
    Agree (BeginsAlike mine strict ρ σ n u)
      (Bench.answered { b with
        signals := b.signals.enter m b.signalStates.length
        signalStates := b.signalStates ++ [{ cardinality }] } .ok)
      (Bench.answered { B with
        signals := B.signals.enter m B.signalStates.length
        signalStates := B.signalStates ++ [{ cardinality }] } .ok) := by
  have hlength : (B.signalStates ++ [({ cardinality } : Signal Slot)]).length = grown n .signal 1 .signal := by
    rw [grown_self, List.length_append, h.signals_length, List.length_singleton]
  have hworld := h.world.beyond (.inl rfl) 1
  have hcallbacks := h.callbacks_length.trans (grown_of_ne n (k := .signal) 1 (by decide)).symm
  have hlengths : ∀ t, Bench.lengths { B with signals := t, signalStates := B.signalStates ++ [{ cardinality }] } =
    grown n .signal 1 := fun t => lengths_of_measured hworld.toMeasured hlength hcallbacks
  refine answered_grown (le_grown n .signal 1) (hlengths _) fun hown => ⟨?_, rfl⟩
  -- The next number belongs to this side, so the new signal stands there in both.
  have hmine : ∃ i, ρ.signal i = B.signalStates.length := h.signals_length ▸ hown.grown Nat.one_pos
  have hsplit := h.world.beside.split .signal
  have hentered := h.signals.enter hm b.signalStates.length
  rw [show ρ.signal b.signalStates.length = B.signalStates.length from h.signalStates.next hsplit hmine] at hentered
  exact { h with
    world := hworld
    signals := hentered
    signalStates := h.signalStates.snoc hsplit hmine { cardinality }
    signals_length := hlength
    callbacks_length := hcallbacks
    rules_length := h.rules_length.trans (grown_of_ne n 1 (by decide)).symm }

theorem newSignal (h : Shares mine strict ρ σ n b u B) (hn : Calls mine .signals name) (kind : Field) :
    Agree (BeginsAlike mine strict ρ σ n u) (b.newSignal name kind) (B.newSignal name kind) := by
  refine (h.signals.fresh hn).bind ?_
  rintro _ m ⟨rfl, hm⟩
  refine Agree.refl.bind ?_
  rintro _ k rfl
  dsimp only
  split
  · exact h.makeSignal hm .oneToMany
  · exact h.makeSignal hm .oneToOne
  · rfl

theorem dropSignal (h : Shares mine strict ρ σ n b u B) (hg : Calls mine .signals signal) :
    Agree (BeginsAlike mine strict ρ σ n u) (b.dropSignal signal) (B.dropSignal signal) := by
  refine (h.signals.lookup hg).bind ?_
  rintro ⟨m, g⟩ _ ⟨rfl, hm⟩
  exact (h.of_signals (h.signals.strike hm)).answered rfl

theorem newCallback (h : Shares mine strict ρ σ n b u B) (hn : Calls mine .callbacks name)
    (hr : RulesInside mine strict rules) :
    Agree (BeginsAlike mine strict ρ σ n u) (b.newCallback name rules) (B.newCallback name rules) := by
  refine (h.callbacks.fresh hn).bind ?_
  rintro _ m ⟨rfl, hm⟩
  have hlength : (B.callbackStates ++ [({ name := m, rules } : Callback)]).length = grown n .callback 1 .callback := by
    rw [grown_self, List.length_append, h.callbacks_length, List.length_singleton]
  have hworld := h.world.beyond (.inr rfl) 1
  have hsignals := h.signals_length.trans (grown_of_ne n (k := .callback) 1 (by decide)).symm
  have hlengths : ∀ t,
      Bench.lengths { B with callbacks := t, callbackStates := B.callbackStates ++ [{ name := m, rules }] } =
    grown n .callback 1 := fun t => lengths_of_measured hworld.toMeasured hsignals hlength
  refine answered_grown (le_grown n .callback 1) (hlengths _) fun hown => ⟨?_, rfl⟩
  -- The next number belongs to this side, and the rules speak of its names only.
  have hmine : ∃ i, ρ.callback i = B.callbackStates.length := h.callbacks_length ▸ hown.grown Nat.one_pos
  have hsplit := h.world.beside.split .callback
  have hentered := h.callbacks.enter hm b.callbackStates.length
  have hnext : ρ.callback b.callbackStates.length = B.callbackStates.length :=
    h.callbackStates.next hsplit hmine
  rw [hnext] at hentered
  exact { h with
    world := hworld
    callbacks := hentered
    callbackStates := h.callbackStates.snoc hsplit hmine { name := m, rules }
    callbacks_length := hlength
    signals_length := hsignals
    rules_length := h.rules_length.trans (grown_of_ne n 1 (by decide)).symm
    callbacks_inside := fun c hc => by
      rcases List.mem_append.1 hc with hold | hnew
      · exact h.callbacks_inside c hold
      · rw [List.mem_singleton.1 hnew]
        exact hr }

theorem dropCallback (h : Shares mine strict ρ σ n b u B) (hc : Calls mine .callbacks callback) :
    Agree (BeginsAlike mine strict ρ σ n u) (b.dropCallback callback) (B.dropCallback callback) := by
  refine (h.callbacks.lookup hc).bind ?_
  rintro ⟨m, c⟩ _ ⟨rfl, hm⟩
  exact (h.of_callbacks (h.callbacks.strike hm)).answered rfl

theorem callCallback (h : Shares mine strict ρ σ n b u B) (hc : Calls mine .callbacks callback) :
    Agree (BeginsAlike mine strict ρ σ n u) (b.callCallback given callback value)
      (B.callCallback given callback value) := by
  refine (h.callbacks.lookup hc).bind ?_
  rintro ⟨m, c⟩ _ ⟨rfl, -⟩
  refine Agree.refl.bind ?_
  rintro _ v rfl
  exact h.begins rfl rfl rfl rfl (fun _ he => Outcome.noConfusion he) fun _ _ he => Outcome.noConfusion he

theorem foldl_uses (frames : List Frame) (c : CallbackId) (k : Nat) :
    (frames.map (Frame.rename ρ)).foldl (fun n f => n + f.uses (ρ.callback c)) k =
        frames.foldl (fun n f => n + f.uses c) k := by
  rw [List.foldl_map]
  simp only [Frame.uses_rename]

/-- A callback is held on `B` as often as on `b`; signals of the other side have none of its places. -/
theorem references (h : Shares mine strict ρ σ n b u B) (frames : List Frame) (c : CallbackId) :
    B.references (frames.map (Frame.rename ρ)) (ρ.callback c) = b.references frames c := by
  have hplaces : ∀ s : Signal Slot, ((s.rename ρ).places.countP (·.slot == .callback (ρ.callback c))) =
      s.places.countP (·.slot == .callback c) := fun s => by
    rw [Signal.rename, List.countP_map]
    exact List.countP_congr fun p _ => by
      show (p.slot.rename ρ == .callback (ρ.callback c)) = true ↔ _
      rw [Slot.beq_callback_rename]
  -- No slot of the other side calls the callback, so its signals count for nothing.
  have hnone : ∀ s : Signal Slot, ((s.rename σ).places.countP (·.slot == .callback (ρ.callback c))) = 0 := fun s => by
    rw [Signal.rename, List.countP_map, List.countP_eq_zero]
    rintro ⟨id, slot⟩ -
    cases slot with
    | handler k position => exact Bool.false_ne_true
    | callback k =>
      show ¬ (Slot.callback (σ.callback k) == .callback (ρ.callback c)) = true
      rw [beq_iff_eq]
      exact fun he => (h.world.beside.split .callback).apart c k (Slot.callback.inj he).symm
  unfold Bench.references
  dsimp only
  rw [foldl_uses, h.callbacks.countP_eq (h.world.beside.split .callback)]
  congr 2
  refine h.signalStates.sum (h.world.beside.split .signal) (fun g => ?_) fun g => ?_
  · rw [show Ref.signal (ρ.signal g) = (Ref.signal g).rename ρ from rfl,
      h.keeps (pinned_rename frames) Ref.noConfusion, h.signal?]
    rcases b.signal? g with _ | s
    · rfl
    · rw [Option.map_some, Option.map_some, Option.map_some, Option.getD_some, Option.getD_some, hplaces]
  · rw [show B.signal? (σ.signal g) = (u.signal? g).map (Signal.rename σ) from h.signalStates.right g]
    rcases u.signal? g with _ | s
    · exact ite_self _
    · rw [Option.map_some, Option.map_some, Option.getD_some, hnone, ite_self]

theorem callbackInfo (h : Shares mine strict ρ σ n b u B) (hc : Calls mine .callbacks callback) (frames : List Frame) :
    Agree (BeginsAlike mine strict ρ σ n u) (b.callbackInfo frames callback)
        (B.callbackInfo (frames.map (Frame.rename ρ)) callback) := by
  refine (h.callbacks.lookup hc).bind ?_
  rintro ⟨m, c⟩ _ ⟨rfl, -⟩
  exact h.answered (congrArg Result.slot (h.references frames c))

theorem setSignal (h : Shares mine strict ρ σ n b u B) (g : SignalId) (s : Signal Slot) :
    Shares mine strict ρ σ n (b.setSignal g s) u (B.setSignal (ρ.signal g) (s.rename ρ)) :=
  { h with
    signalStates := h.signalStates.set (h.world.beside.split .signal) g s
    signals_length := (List.length_set ..).trans h.signals_length }

theorem connect (h : Shares mine strict ρ σ n b u B) (hg : Calls mine .signals signal)
    (hc : Calls mine .callbacks callback) (hn : Calls mine .connections connection) :
    Agree (BeginsAlike mine strict ρ σ n u) (b.connect signal callback connection)
        (B.connect signal callback connection) := by
  refine (h.signalNamed hg).bind ?_
  rintro ⟨g, s⟩ _ rfl
  refine (h.callbacks.lookup hc).bind ?_
  rintro ⟨k, c⟩ _ ⟨rfl, -⟩
  refine (h.connections.fresh hn).bind ?_
  rintro _ m ⟨rfl, hm⟩
  have hconnect : (s.rename ρ).connect? (.callback (ρ.callback c)) =
      (s.connect? (.callback c)).map fun x => (x.1, x.2.rename ρ) :=
    s.connect?_rename (.callback c)
  dsimp only
  rw [hconnect]
  rcases s.connect? (.callback c) with _ | ⟨id, s'⟩
  · exact h.answered rfl
  · exact ((h.setSignal g s').of_connections (h.connections.enter hm id)).answered rfl

theorem disconnect (h : Shares mine strict ρ σ n b u B) (hg : Calls mine .signals signal)
    (hn : Calls mine .connections connection) :
    Agree (BeginsAlike mine strict ρ σ n u) (b.disconnect signal connection) (B.disconnect signal connection) := by
  refine (h.signalNamed hg).bind ?_
  rintro ⟨g, s⟩ _ rfl
  refine (h.connections.lookup hn).bind ?_
  rintro ⟨m, p⟩ _ ⟨rfl, hm⟩
  have hstruck := h.of_connections (h.connections.strike hm)
  dsimp only [id]
  rw [Signal.disconnect?_rename]
  rcases s.disconnect? p with _ | s'
  · exact (hstruck.note (.event (.unknownSlot p))).answered rfl
  · exact (hstruck.setSignal g s').answered rfl

theorem emit (h : Shares mine strict ρ σ n b u B) (hg : Calls mine .signals signal) (numbered : Bool) :
    Agree (BeginsAlike mine strict ρ σ n u) (b.emit given signal value numbered)
      (B.emit given signal value numbered) := by
  refine (h.signalNamed hg).bind ?_
  rintro ⟨g, s⟩ _ rfl
  refine Agree.refl.bind ?_
  rintro _ v rfl
  exact h.begins rfl rfl rfl rfl (fun _ he => Outcome.noConfusion he) fun _ _ he => Outcome.noConfusion he

theorem signalInfo (h : Shares mine strict ρ σ n b u B) (hg : Calls mine .signals signal) :
    Agree (BeginsAlike mine strict ρ σ n u) (b.signalInfo signal) (B.signalInfo signal) := by
  refine (h.signalNamed hg).bind ?_
  rintro ⟨g, s⟩ _ rfl
  exact h.answered (congrArg (Result.signal · s.cardinality) s.size_rename)

theorem disconnectAt (h : Shares mine strict ρ σ n b u B) (he : Points mine endpoint)
    (hn : Calls mine .connections connection) :
    Agree (BeginsAlike mine strict ρ σ n u) (b.disconnectAt endpoint connection)
      (B.disconnectAt endpoint connection) := by
  refine (h.endpoint he).bind ?_
  rintro p _ rfl
  refine (h.channelAt p).bind ?_
  rintro c _ rfl
  rw [Channel.direction_rename, Channel.counts_rename]
  split
  · rfl
  · refine (h.connections.lookup hn).bind ?_
    rintro ⟨m, id⟩ _ ⟨rfl, hm⟩
    have hstruck := h.of_connections (h.connections.strike hm)
    exact (hstruck.of_world (h.world.disconnectByHand p.channel id)).answered rfl

end Conduit.Scenario.Bench.Shares
