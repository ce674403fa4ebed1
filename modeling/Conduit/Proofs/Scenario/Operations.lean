/-
Performing steps on components, channels and subscriptions, and deliveries. Operations are taken one by
one, each by what it changes.
-/
import Conduit.Proofs.Scenario.Performed

namespace Conduit.Scenario

open World (License)

namespace Bench

variable {may : License} {pins : Ref → Bool} {b b' : Bench} {r : Begun}

/-! ## Components and channels -/

theorem leads_furnish (b : Bench) (name : String) (layout : Layout) (rules : Rules)
    (hn : b.components.uses name = false) : Leads may pins pins b (b.furnish name layout rules) := by
  have hw : Leads may pins pins b { b with world := (b.world.create name layout).2 } :=
    leads_of_world (.act _ (.create name layout) (fun r hr => hr.create name layout) (.create b.world name layout))
  have hnew : (b.world.create name layout).2.componentAlive b.world.components.length = true := by
    rw [World.componentAlive_create]
    simp
  refine hw.trans ?_
  let made : Bench := { b with world := (b.world.create name layout).2 }
  have hkeeps : ∀ r, (b.furnish name layout rules).keeps pins r = true ↔
      made.keeps pins r = true ∨ r = .component b.world.components.length :=
        fun r => keeps_enter_component (b := made) r hn
  exact leads_of_name hkeeps hnew rfl rfl fun ho => ⟨ho.handles, ho.registries⟩

theorem create_performed {name layout : Field} {rules : Rules} (h : b.create name layout rules = .ok r) :
    Performed may pins b r := by
  obtain ⟨n, l, hn, -, h⟩ := create_ok h
  exact performed_answered (leads_furnish b n l rules (uses_of_fresh hn)) h

theorem keep_performed (hb : WellFormed pins b) {name component : Field} (h : b.keep name component = .ok r) :
    Performed may pins b r := by
  obtain ⟨n, hn, h⟩ := bind_ok h
  obtain ⟨⟨m, c⟩, hc, h⟩ := bind_ok h
  exact performed_answered (leads_enter_component (uses_of_fresh hn) (hb.componentAlive (mem_of_lookup hc))) h

theorem drop_performed {name : Field} (h : b.drop pins name = .ok r) : Performed may pins b r := by
  obtain ⟨⟨n, c⟩, -, h⟩ := bind_ok h
  have hgo : Leads may pins pins b (settle { b with components := b.components.strike n } pins (.component c)) := by
    refine leads_of_letGo [.component c] rfl rfl (fun ho => ⟨ho.handles, ho.registries⟩)
      (fun r hr => ?_) fun _ ha => .inl ha
    cases r with
    | component k => exact keeps_component.2 ((keeps_component.1 hr).imp_right Names.exists_mem_of_strike)
    | _ => exact hr
  exact performed_answered hgo h

theorem hold_performed (hb : WellFormed pins b) {name endpoint : Field} (h : b.hold name endpoint = .ok r) :
    Performed may pins b r := by
  obtain ⟨g, -, h⟩ := bind_ok h
  obtain ⟨p, hp, h⟩ := bind_ok h
  obtain ⟨n, hn, h⟩ := bind_ok h
  exact performed_answered (leads_enter_channel (uses_of_fresh hn) (endpoint_channelAlive hb hp)) h

theorem release_performed {name : Field} (h : b.release pins name = .ok r) : Performed may pins b r := by
  obtain ⟨⟨n, ch⟩, -, h⟩ := bind_ok h
  have hgo : Leads may pins pins b (settle { b with channels := b.channels.strike n } pins (.channel ch)) := by
    refine leads_of_letGo [.channel ch] rfl rfl (fun ho => ⟨ho.handles, ho.registries⟩)
      (fun r hr => ?_) fun _ ha => .inl ha
    cases r with
    | channel k => exact keeps_channel.2 ((keeps_channel.1 hr).imp_right Names.exists_mem_of_strike)
    | _ => exact hr
  exact performed_answered hgo h

/-! ## Deliveries -/

theorem begins_emissionAt (b : Bench) (policy : Policy) (ch : ChannelId) (v : Value) :
    b.Begins (b.emissionAt policy ch v) := ⟨rfl, rfl, rfl, rfl⟩

theorem publish_performed (hb : WellFormed pins b) {policy : Policy} {given : Option Value} {endpoint : Field}
    {value : Option Expr} (h : b.publish policy given endpoint value = .ok r) : Performed may pins b r := by
  obtain ⟨p, c, v, hp, -, -, -, rfl⟩ := publish_ok h
  obtain ⟨hlives, hin⟩ := endpoint_lives hb hp
  refine ⟨.refl b, hlives, fun e he => ?_, fun _ ht => Outcome.noConfusion ht⟩
  cases he
  exact ⟨begins_emissionAt b policy p.channel v, hin⟩

theorem callSlot_performed (hb : WellFormed pins b) {given : Option Value} {endpoint : Field} {value : Option Expr}
    (h : b.callSlot given endpoint value = .ok r) : Performed may pins b r := by
  obtain ⟨p, c, v, hp, -, -, -, rfl⟩ := callSlot_ok h
  exact performed_silent (.refl b) (endpoint_lives hb hp).1 nofun nofun

theorem panic_performed {given : Option Value} {kind text : Field} (h : b.panic given kind text = .ok r) :
    Performed may pins b r := by
  obtain ⟨p, rfl⟩ := panic_ok h
  exact performed_silent (.refl b) (fun _ hx => absurd hx List.not_mem_nil) nofun nofun

theorem callCallback_performed {given : Option Value} {callback : Field} {value : Option Expr}
    (h : b.callCallback given callback value = .ok r) : Performed may pins b r := by
  obtain ⟨n, c, v, -, -, rfl⟩ := callCallback_ok h
  refine performed_silent (.refl b) (fun x hx => ?_) nofun nofun
  obtain rfl := List.mem_singleton.1 hx
  trivial

theorem emit_performed {given : Option Value} {signal : Field} {value : Option Expr} {numbered : Bool}
    (h : b.emit given signal value numbered = .ok r) : Performed may pins b r := by
  obtain ⟨g, s, v, hs, -, rfl⟩ := emit_ok h
  refine ⟨.refl b, fun x hx => ?_, fun e he => ?_, fun _ ht => Outcome.noConfusion ht⟩
  · obtain rfl := List.mem_singleton.1 hx
    trivial
  · cases he
    refine ⟨⟨?_, rfl, rfl, rfl⟩, List.mem_singleton_self _⟩
    show s.places = b.placesOf (.signal g)
    rw [placesOf, sourceSignal?, signal?_of_signalNamed hs]
    rfl

theorem parallel_performed (hb : WellFormed pins b) {endpoints : Option (List Field)} {count : Option Nat}
    (h : b.parallel endpoints count = .ok r) : Performed may pins b r := by
  obtain ⟨ps, n, hps, -, rfl⟩ := parallel_ok h
  have hends : ∀ p ∈ ps, (∀ x ∈ p.holds, b.world.Lives x) ∧ .channel p.channel ∈ p.holds := fun p hp => by
    obtain ⟨f, hf⟩ := hps p hp
    exact endpoint_lives hb hf
  refine ⟨.refl b, fun x hx => ?_, fun _ he => Outcome.noConfusion he, fun todo ht x hx => ?_⟩
  · obtain ⟨p, hp, hx⟩ := List.mem_flatMap.1 hx
    exact (hends p hp).1 x hx
  · cases ht
    obtain ⟨p, hp, hx⟩ := List.mem_flatMap.1 hx
    obtain ⟨k, -, rfl⟩ := List.mem_map.1 hx
    exact List.mem_flatMap.2 ⟨p, hp, (hends p hp).2⟩

/-! ## Subscriptions -/

/-- A subscription is made between living channels, of which the second is an input. -/
theorem leads_subscribe (hb : WellFormed pins b) (ht : may.subscribing) {o i : ChannelId} {s : Nat} {w : World}
    (ho : b.world.channelAlive o = true)
    (hi : b.world.channelAlive i = true) (hin : b.world.signal? i = none) (hs : b.world.subscribe? o i = some (s, w)) :
    Leads may pins pins b { b with world := w } ∧ w.Knows (.own s) := by
  obtain ⟨p, slot, g, g', hmade⟩ := World.subscribed_of_subscribe? hin hs
  refine ⟨leads_of_world (.act _ (.subscribe ht ho hi hin hs) (fun r hr => hr.subscribe hmade)
    (.subscribe hb.scene.sound ho hmade)), ?_⟩
  show (w.subscription? s).isSome
  rw [hmade.subscription?, if_pos rfl]
  rfl

theorem subscribe_performed (hb : WellFormed pins b) (ht : may.subscribing) {output input name : Field}
    {via : Option Field} (h : b.subscribe output input name via = .ok r) : Performed may pins b r := by
  obtain ⟨out, inp, hout, hinp, hin, h | ⟨s, w, hs, hfresh, h⟩⟩ := subscribe_cases h
  · exact performed_answered (.refl b) h
  · obtain ⟨hw, hknows⟩ := leads_subscribe hb ht (endpoint_channelAlive hb hout) (endpoint_channelAlive hb hinp) hin hs
    cases name with
    | none => exact performed_answered hw h
    | some n =>
      refine performed_answered (hw.trans ?_) h
      exact leads_enter_handle (b := { b with world := w }) (hfresh n rfl) hknows

theorem close_performed {handle : Field} (h : b.close handle = .ok r) : Performed may pins b r := by
  obtain ⟨⟨n, a⟩, -, h⟩ := bind_ok h
  exact performed_answered (leads_of_world (.torn (World.torn_closeHandle b.world a))) h

theorem dropHandle_performed (hb : WellFormed pins b) {handle : Field} (h : b.dropHandle pins handle = .ok r) :
    Performed may pins b r := by
  obtain ⟨⟨n, a⟩, ha, h⟩ := bind_ok h
  have hgo : Leads may pins pins b (settle { b with handles := b.handles.strike n } pins (.handle a)) := by
    refine leads_of_letGo [.handle a] rfl rfl (fun ho => ⟨ho.handles.strike n, ho.registries⟩) (fun r hr => ?_)
      fun k hk => ?_
    · cases r with
      | handle k => exact keeps_handle.2 ((keeps_handle.1 hr).imp_right (.imp_left Names.exists_mem_of_strike))
      | _ => exact hr
    · rcases keeps_handle.1 hk with hp | ⟨m, hm⟩ | hr
      · exact .inl (keeps_handle.2 (.inl hp))
      -- The name that goes stood for this handle only, but other names may stand for it too.
      · by_cases hmn : m = n
        · subst hmn
          obtain rfl := hb.ordered.handles.unique hm (mem_of_lookup ha)
          exact .inr (List.mem_singleton_self _)
        · exact .inl (keeps_handle.2 (.inr (.inl ⟨m, Names.mem_strike.2 ⟨hm, hmn⟩⟩)))
      · exact .inl (keeps_handle.2 (.inr (.inr hr)))
  exact performed_answered hgo h

theorem cloneHandle_performed (hb : WellFormed pins b) {handle name : Field} (h : b.cloneHandle handle name = .ok r) :
    Performed may pins b r := by
  obtain ⟨⟨n, a⟩, ha, h⟩ := bind_ok h
  obtain ⟨m, hm, h⟩ := bind_ok h
  exact performed_answered (leads_enter_handle (uses_of_fresh hm) (hb.knows (mem_of_lookup ha))) h

theorem register_performed (hb : WellFormed pins b) (ht : may.registering) {endpoint handle : Field}
    (h : b.register endpoint handle = .ok r) : Performed may pins b r := by
  obtain ⟨p, n, a, hp, ha, h⟩ := register_ok h
  have hreg : Leads may pins pins b { b with world := b.world.register p.channel a } :=
    leads_of_world (.act _ (.register ht (endpoint_channelAlive hb hp) (hb.knows (mem_of_lookup ha)))
      (fun r hr => hr.of_sameParts (World.sameParts_register ..)) (World.Keeps.register b.world p.channel a))
  exact performed_answered hreg h

theorem unregister_performed (ht : may.registering) {endpoint handle : Field}
    (h : b.unregister pins endpoint handle = .ok r) :
    Performed may pins b r := by
  obtain ⟨p, n, a, -, -, h⟩ := unregister_ok h
  exact performed_answered (leads_of_world (.unregister ht b.world (b.keeps pins) p.channel (b.world.handleId a))) h

theorem forge_performed (hb : WellFormed pins b) {like name : Field} (h : b.forge like name = .ok r) :
    Performed may pins b r := by
  obtain ⟨⟨n, a⟩, ha, h⟩ := bind_ok h
  obtain ⟨m, hm, h⟩ := bind_ok h
  let g : ForeignHandle := { id := b.world.handleId a, name := m }
  have hadopt : Leads may pins pins b { b with world := b.world.adopt g } :=
    leads_of_world (.act _ (.adopt g (hb.scene.sound.handleId_le (hb.knows (mem_of_lookup ha))))
      (fun r hr => hr.adopt g) (.of_registry (fun _ h => h) (fun _ h => h) fun _ _ _ _ h => h))
  have hknows : (b.world.adopt g).Knows (.foreign b.world.foreigns.length) := by
    show b.world.foreigns.length < (b.world.foreigns ++ [g]).length
    simp
  refine performed_answered (hadopt.trans ?_) h
  exact leads_enter_handle (b := { b with world := b.world.adopt g }) (uses_of_fresh hm) hknows

end Bench

end Conduit.Scenario
