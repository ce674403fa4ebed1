/-
What performing a step does, whichever it is. Signals of the bench hold nothing of the wiring, and each
step on them leads to later ones; the other steps are taken from where they are treated.
-/
import Conduit.Proofs.Scenario.Operations
import Conduit.Proofs.Scenario.Shelves

namespace Conduit.Scenario

open World (Change License)

namespace Bench

variable {may : License} {pins : Ref → Bool} {b b' : Bench} {r : Begun}

/-! ## Signals and callbacks -/

/-- Names of signals, callbacks and connections hold nothing of the wiring. -/
theorem leads_of_aside (hw : b'.world = b.world) (hs : b'.signalStates = b.signalStates)
    (hc : b'.components = b.components)
    (hch : b'.channels = b.channels) (hh : b'.handles = b.handles) (hr : b'.registries = b.registries) :
    Leads may pins pins b b' := by
  have hlives : ∀ x, b'.keeps pins x = true → b.keeps pins x = true ∨ b.world.Lives x := fun x hx => by
    cases x with
    | signal g => exact .inr trivial
    | callback c => exact .inr trivial
    | component c => exact .inl (by simpa only [keeps, hc] using hx)
    | channel ch => exact .inl (by simpa only [keeps, hch] using hx)
    | handle h => exact .inl (by simpa only [keeps, hh, hr] using hx)
  have hhandle : ∀ k, b'.keeps pins (.handle k) = b.keeps pins (.handle k) := fun k => by simp only [keeps, hh, hr]
  -- Some names may be new and others gone: all of them are held in between.
  let both : Ref → Bool := fun x => b.keeps pins x || b'.keeps pins x
  have hgain : Change may (b.scene pins) ⟨b.world, both⟩ :=
    .gain b.world (fun x hx => by simp [both, hx]) fun x hx => by
      rcases Bool.or_eq_true _ _ ▸ hx with hx | hx
      · exact .inl hx
      · exact hlives x hx
  have hlose : Change may ⟨b.world, both⟩ (b'.scene pins) := by
    rw [scene, hw]
    exact .letGo b.world [] (fun x hx => by simp [both, hx]) fun k hk => .inl (by simpa [both, hhandle] using hk)
  exact ⟨.tail (.single hgain) hlose, fun ho => ⟨hh ▸ ho.handles, hr ▸ ho.registries⟩,
    fun ht g s hg => ht g s (by rwa [signal?, hs] at hg), fun g s hg => ⟨s, by rwa [signal?, hs], .refl s⟩⟩

/-- A signal without places is added. -/
theorem leads_addSignal (b : Bench) (cardinality : Cardinality) :
    Leads may pins pins b { b with signalStates := b.signalStates ++ [{ cardinality }] } := by
  refine ⟨.refl, fun ho => ⟨ho.handles, ho.registries⟩, fun ht g s hg => ?_, fun g s hg => ⟨s, ?_, .refl s⟩⟩
  · rcases lt_or_ge g b.signalStates.length with hlt | hge
    · exact ht g s ((List.getElem?_append_left hlt).symm.trans hg)
    · have hs : s ∈ [({ cardinality } : Signal Slot)] :=
        List.mem_of_getElem? ((List.getElem?_append_right hge).symm.trans hg)
      rw [List.mem_singleton.1 hs]
      exact Signal.tidy_of_places_nil rfl
  · have hlt : g < b.signalStates.length := (List.getElem?_eq_some_iff.1 hg).1
    exact (List.getElem?_append_left hlt).trans hg

theorem newSignal_performed {name kind : Field} (h : b.newSignal name kind = .ok r) : Performed may pins b r := by
  obtain ⟨n, cardinality, -, -, h⟩ := newSignal_ok h
  have hmade : Leads may pins pins b
      { b with
        signals := b.signals.enter n b.signalStates.length
        signalStates := b.signalStates ++ [{ cardinality }] } :=
    (leads_addSignal b cardinality).trans (leads_of_aside rfl rfl rfl rfl rfl rfl)
  exact performed_answered hmade h

theorem dropSignal_performed {signal : Field} (h : b.dropSignal signal = .ok r) : Performed may pins b r := by
  obtain ⟨⟨n, g⟩, -, h⟩ := bind_ok h
  have hstrike : Leads may pins pins b { b with signals := b.signals.strike n } :=
      leads_of_aside rfl rfl rfl rfl rfl rfl
  exact performed_answered hstrike h

theorem newCallback_performed {name : Field} {rules : Rules} (h : b.newCallback name rules = .ok r) :
    Performed may pins b r := by
  obtain ⟨n, -, h⟩ := bind_ok h
  refine performed_answered ?_ h
  exact leads_of_aside rfl rfl rfl rfl rfl rfl

theorem dropCallback_performed {callback : Field} (h : b.dropCallback callback = .ok r) : Performed may pins b r := by
  obtain ⟨⟨n, c⟩, -, h⟩ := bind_ok h
  have hstrike : Leads may pins pins b { b with callbacks := b.callbacks.strike n } :=
      leads_of_aside rfl rfl rfl rfl rfl rfl
  exact performed_answered hstrike h

theorem connect_performed {signal callback connection : Field} (h : b.connect signal callback connection = .ok r) :
    Performed may pins b r := by
  obtain ⟨g, s, m, c, n, hs, -, -, ⟨-, h⟩ | ⟨id, s', hconn, h⟩⟩ := connect_ok h
  · exact performed_answered (.refl b) h
  · have hset : Leads may pins pins b (b.setSignal g s') :=
      leads_setSignal (signal?_of_signalNamed hs) (Signal.later_of_connect? hconn)
        fun ht => Signal.tidy_of_connect? ht hconn
    refine performed_answered (hset.trans ?_) h
    exact leads_of_aside rfl rfl rfl rfl rfl rfl

theorem disconnect_performed {signal connection : Field} (h : b.disconnect signal connection = .ok r) :
    Performed may pins b r := by
  obtain ⟨g, s, n, id, hs, -, h⟩ := disconnect_ok h
  have hstrike : Leads may pins pins b { b with connections := b.connections.strike n } :=
    leads_of_aside rfl rfl rfl rfl rfl rfl
  obtain ⟨s', hdis, h⟩ | ⟨-, h⟩ := h
  · obtain rfl := Signal.eq_without_of_disconnect? hdis
    refine performed_answered (hstrike.trans (leads_setSignal ?_ (Signal.later_without s id) fun ht => ht.without id)) h
    exact signal?_of_signalNamed hs
  · exact performed_answered (hstrike.trans (leads_note _ _)) h

theorem disconnectAt_performed (ht : may.disconnecting) {endpoint connection : Field}
    (h : b.disconnectAt endpoint connection = .ok r) :
    Performed may pins b r := by
  obtain ⟨p, n, id, -, -, h⟩ := disconnectAt_ok h
  have hstrike : Leads may pins pins b { b with connections := b.connections.strike n } :=
    leads_of_aside rfl rfl rfl rfl rfl rfl
  exact performed_answered (hstrike.trans (leads_of_world (.act _ (.disconnectByHand ht p.channel id)
    (fun x hx => hx.of_sameParts (World.sameParts_disconnectByHand ..))
    (World.Keeps.disconnectByHand b.world p.channel id)))) h

/-! ## Any step -/

/-- A step that is not refused leads on from the bench, and holds what it needs while it runs on. -/
theorem perform_performed {frames : List Frame} {given : Option Value} {action : Action}
    (hb : WellFormed (pinned frames) b) (ht : action.Within may) (h : b.perform frames given action = .ok r) :
    Performed may (pinned frames) b r := by
  -- One lemma for each action that changes something. Those that only look share theirs.
  cases action with
  | inspect _ | group _ | handleInfo _ | downcast _ _ _ | has _ _ | contains _ _ | registryInfo _ | callbackInfo _
  | signalInfo _ =>
    obtain ⟨res, h, -⟩ := looks_ok h trivial
    exact performed_answered (.refl b) h
  | create name layout rules => exact create_performed h
  | keep name component => exact keep_performed hb h
  | drop name => exact drop_performed h
  | hold name endpoint => exact hold_performed hb h
  | release name => exact release_performed h
  | publish endpoint value => exact publish_performed hb h
  | tryPublish endpoint value => exact publish_performed hb h
  | callSlot endpoint value => exact callSlot_performed hb h
  | panic kind text => exact panic_performed h
  | subscribe output input name via => exact subscribe_performed hb ht h
  | close handle => exact close_performed h
  | dropHandle handle => exact dropHandle_performed hb h
  | cloneHandle handle name => exact cloneHandle_performed hb h
  | register endpoint handle => exact register_performed hb ht h
  | unregister endpoint handle => exact unregister_performed ht h
  | forge like name => exact forge_performed hb h
  | newRegistry name => exact newRegistry_performed h
  | dropRegistry registry => exact dropRegistry_performed hb h
  | addTo registry handle => exact addTo_performed hb h
  | removeFrom registry handle => exact removeFrom_performed hb h
  | closeAll registry => exact closeAll_performed hb h
  | newSignal name kind => exact newSignal_performed h
  | dropSignal signal => exact dropSignal_performed h
  | newCallback name rules => exact newCallback_performed h
  | dropCallback callback => exact dropCallback_performed h
  | callCallback callback value => exact callCallback_performed h
  | connect signal callback connection => exact connect_performed h
  | disconnect signal connection => exact disconnect_performed h
  | emit signal value numbered => exact emit_performed h
  | disconnectAt endpoint connection => exact disconnectAt_performed ht h
  | thread steps =>
    obtain ⟨todo, -, rfl⟩ := thread_ok h
    exact performed_silent (.refl b) (fun _ hx => absurd hx List.not_mem_nil) nofun nofun
  | parallel endpoints count => exact parallel_performed hb h
  | unknown => cases h

end Bench

end Conduit.Scenario
