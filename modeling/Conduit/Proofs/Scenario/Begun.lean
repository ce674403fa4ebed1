/-
What a step that is not refused has looked up, and what it has come to. Each operation is taken apart here
once, with the checks that it has passed; what a step does to a bench is told elsewhere, from this.
-/
import Conduit.Scenario.Perform
import Conduit.Proofs.Wiring.Scene

namespace Conduit.Scenario

theorem bind_ok {ε α β : Type} {x : Except ε α} {f : α → Except ε β} {r : β} (h : (x >>= f) = .ok r) :
    ∃ a, x = .ok a ∧ f a = .ok r := by
  cases x with
  | error e => cases h
  | ok a => exact ⟨a, rfl, h⟩

/-- Everything that is read in a row has been read from something in the row. -/
theorem mapM_ok {α β ε : Type} {f : α → Except ε β} : ∀ {l : List α} {m : List β}, l.mapM f = .ok m →
    ∀ y ∈ m, ∃ x ∈ l, f x = .ok y
  | [], m, h, y, hy => by
    cases h
    cases hy
  | x :: l, m, h, y, hy => by
    rw [List.mapM_cons] at h
    obtain ⟨z, hz, h⟩ := bind_ok h
    obtain ⟨m', hm', h⟩ := bind_ok h
    cases h
    rcases List.mem_cons.1 hy with rfl | hy
    · exact ⟨x, List.mem_cons_self .., hz⟩
    · obtain ⟨x', hx', hf⟩ := mapM_ok hm' y hy
      exact ⟨x', List.mem_cons_of_mem _ hx', hf⟩

/-- The step looks at something, and that is all. -/
def Action.Looks : Action → Prop
  | .inspect _ | .group _ | .handleInfo _ | .downcast _ _ _ | .has _ _ | .contains _ _ | .registryInfo _
  | .callbackInfo _ | .signalInfo _ => True
  | _ => False

/-- The step has no answer yet when it has begun: slots are called, a panic is raised, or other steps are done. -/
def Action.Runs : Action → Prop
  | .publish _ _ | .tryPublish _ _ | .callSlot _ _ | .panic _ _ | .callCallback _ _ | .emit _ _ _ | .thread _
  | .parallel _ _ => True
  | _ => False

namespace Bench

variable {b : Bench} {r : Begun} {pins : Ref → Bool} {given : Option Value} {value : Option Expr}

/-! ## Looking things up -/

section Lookup

variable {α : Type} {t : Names α} {f : Field} {name : String} {a : α}

theorem field_ok {s : String} (h : field f = .ok s) : f = some s := by
  cases f with
  | none => cases h
  | some s' =>
    cases h
    rfl

theorem find?_of_lookup (h : lookup t f = .ok (name, a)) : t.find? name = some a := by
  obtain ⟨n, -, h⟩ := bind_ok h
  split at h
  · rename_i hn
    cases h
    exact hn
  · cases h

theorem uses_of_fresh (h : fresh t f = .ok name) : t.uses name = false := by
  obtain ⟨n, -, h⟩ := bind_ok h
  split at h
  · cases h
  · rename_i hn
    cases h
    simpa using hn

end Lookup

theorem channelAt_eq {p : Endpoint} {c : Channel} (h : b.channelAt p = .ok c) :
    b.world.channels[p.channel]? = some c := by
  unfold channelAt at h
  split at h
  · rename_i hc
    cases h
    exact hc
  · cases h

/-- An endpoint is a channel that has a name itself, or one at a position of a component that has. -/
theorem endpoint_ok {f : Field} {p : Endpoint} (h : b.endpoint f = .ok p) :
    (∃ n, lookup b.channels f = .ok (n, p.channel) ∧ p.holds = [.channel p.channel]) ∨
      ∃ component position n c, lookup b.components (some component) = .ok (n, c) ∧
        (b.world.components[c]?).bind (channelOf? · position) = some p.channel ∧
        p.holds = [.channel p.channel, .component c] := by
  obtain ⟨name, -, h⟩ := bind_ok h
  rcases hs : splitAtLastDot name with _ | ⟨component, position⟩
  · simp only [hs] at h
    obtain ⟨⟨n, ch⟩, hch, h⟩ := bind_ok h
    cases h
    exact .inl ⟨n, hch, rfl⟩
  · simp only [hs] at h
    obtain ⟨⟨n, c⟩, hc, h⟩ := bind_ok h
    split at h
    · rename_i ch hch
      cases h
      exact .inr ⟨component, position, n, c, hc, hch, rfl⟩
    · cases h

theorem signal?_of_signalNamed {f : Field} {g : SignalId} {s : Signal Slot} (h : b.signalNamed f = .ok (g, s)) :
    b.signal? g = some s := by
  obtain ⟨⟨n, k⟩, -, h⟩ := bind_ok h
  dsimp only at h
  split at h
  · rename_i hs
    cases h
    exact hs
  · cases h

/-- A step that only looks has its answer, which is no report of failed slots, and leaves the bench as it is. -/
theorem looks_ok {frames : List Frame} {action : Action} (h : b.perform frames given action = .ok r)
    (ha : action.Looks) :
    ∃ res, b.answered res = .ok r ∧ ∀ total messages, res ≠ .slotsFailed total messages := by
  cases action with
  | inspect endpoint =>
    obtain ⟨p, -, h⟩ := bind_ok h
    obtain ⟨c, -, h⟩ := bind_ok h
    exact ⟨_, h, nofun⟩
  | group name =>
    obtain ⟨⟨n, c⟩, -, h⟩ := bind_ok h
    dsimp only at h
    split at h
    · exact ⟨_, h, nofun⟩
    · cases h
  | downcast handle output input =>
    obtain ⟨⟨n, a⟩, -, h⟩ := bind_ok h
    obtain ⟨o, -, h⟩ := bind_ok h
    obtain ⟨i, -, h⟩ := bind_ok h
    split at h
    · split at h
      · exact ⟨_, h, nofun⟩
      · split at h
        · refine ⟨_, h, fun total messages he => ?_⟩
          rcases hv : b.world.endsView? _ with _ | v
          · rw [hv] at he
            cases he
          · rw [hv] at he
            cases he
        · exact ⟨_, h, nofun⟩
    · cases h
  | has endpoint handle =>
    obtain ⟨p, -, h⟩ := bind_ok h
    obtain ⟨⟨n, a⟩, -, h⟩ := bind_ok h
    exact ⟨_, h, nofun⟩
  | contains registry handle =>
    obtain ⟨⟨n, reg⟩, -, h⟩ := bind_ok h
    obtain ⟨⟨m, a⟩, -, h⟩ := bind_ok h
    exact ⟨_, h, nofun⟩
  | handleInfo _ | registryInfo _ | callbackInfo _ | signalInfo _ =>
    obtain ⟨⟨n, a⟩, -, h⟩ := bind_ok h
    exact ⟨_, h, nofun⟩
  | _ => cases ha

/-! ## Components -/

theorem create_ok {name layout : Field} {rules : Rules} (h : b.create name layout rules = .ok r) :
    ∃ n l, fresh b.components name = .ok n ∧ layout.bind Layout.ofName? = some l ∧
      (b.furnish n l rules).answered .ok = .ok r := by
  obtain ⟨n, hn, h⟩ := bind_ok h
  obtain ⟨s, hs, h⟩ := bind_ok h
  split at h
  · rename_i l hl
    refine ⟨n, l, hn, ?_, h⟩
    rw [field_ok hs]
    exact hl
  · cases h

/-! ## Deliveries -/

/-- What is published goes to a channel that is no input. -/
theorem publish_ok {policy : Policy} {endpoint : Field} (h : b.publish policy given endpoint value = .ok r) :
    ∃ p c v, b.endpoint endpoint = .ok p ∧ b.channelAt p = .ok c ∧ valueOf given c.payload value = .ok v ∧
      c.direction ≠ .input ∧
      r = { bench := b, outcome := .emission (b.emissionAt policy p.channel v), holds := p.holds } := by
  obtain ⟨p, hp, h⟩ := bind_ok h
  obtain ⟨c, hc, h⟩ := bind_ok h
  obtain ⟨v, hv, h⟩ := bind_ok h
  dsimp only at h
  split at h
  · cases h
  · rename_i hdir
    cases h
    exact ⟨p, c, v, hp, hc, hv, hdir, rfl⟩

/-- Only the slot of an input is called. -/
theorem callSlot_ok {endpoint : Field} (h : b.callSlot given endpoint value = .ok r) :
    ∃ p c v, b.endpoint endpoint = .ok p ∧ b.channelAt p = .ok c ∧ valueOf given c.payload value = .ok v ∧
      c.direction ≠ .output ∧ r = { bench := b, outcome := .call c.slot v, holds := p.holds } := by
  obtain ⟨p, hp, h⟩ := bind_ok h
  obtain ⟨c, hc, h⟩ := bind_ok h
  obtain ⟨v, hv, h⟩ := bind_ok h
  dsimp only at h
  split at h
  · cases h
  · rename_i hdir
    cases h
    exact ⟨p, c, v, hp, hc, hv, hdir, rfl⟩

theorem panic_ok {kind text : Field} (h : b.panic given kind text = .ok r) :
    ∃ p, r = { bench := b, outcome := .panic p } := by
  obtain ⟨k, -, h⟩ := bind_ok h
  dsimp only at h
  split at h
  · cases h
    exact ⟨.other, rfl⟩
  · obtain ⟨t, -, h⟩ := bind_ok h
    cases h
    exact ⟨_, rfl⟩
  · obtain ⟨p, -, h⟩ := bind_ok h
    cases h
    exact ⟨p, rfl⟩
  · cases h

theorem callCallback_ok {callback : Field} (h : b.callCallback given callback value = .ok r) :
    ∃ n c v, lookup b.callbacks callback = .ok (n, c) ∧ valueOf given .int value = .ok v ∧
      r = { bench := b, outcome := .call (.callback c) v, holds := [.callback c] } := by
  obtain ⟨⟨n, c⟩, hc, h⟩ := bind_ok h
  obtain ⟨v, hv, h⟩ := bind_ok h
  cases h
  exact ⟨n, c, v, hc, hv, rfl⟩

theorem emit_ok {signal : Field} {numbered : Bool} (h : b.emit given signal value numbered = .ok r) :
    ∃ g s v, b.signalNamed signal = .ok (g, s) ∧ valueOf given .int value = .ok v ∧
      r = { bench := b, holds := [.signal g]
            outcome := .emission
              { source := .signal g, policy := if numbered then .numbered else .plain, value := v
                snapshot := s.places, remaining := s.places } } := by
  obtain ⟨⟨g, s⟩, hs, h⟩ := bind_ok h
  obtain ⟨v, hv, h⟩ := bind_ok h
  cases h
  exact ⟨g, s, v, hs, hv, rfl⟩

theorem thread_ok {frames : List Frame} {steps : Option (List (Step Action))}
    (h : b.perform frames given (.thread steps) = .ok r) :
    ∃ todo, steps = some todo ∧ r = { bench := b, outcome := .thread todo } := by
  cases steps with
  | none => cases h
  | some todo =>
    cases h
    exact ⟨todo, rfl, rfl⟩

/-- Every thread has an endpoint of its own. -/
theorem parallel_ok {endpoints : Option (List Field)} {count : Option Nat} (h : b.parallel endpoints count = .ok r) :
    ∃ (ps : List Endpoint) (n : Nat), (∀ p ∈ ps, ∃ f, b.endpoint f = .ok p) ∧ count = some n ∧
      r = { bench := b, holds := ps.flatMap (·.holds)
            outcome := .batch (ps.flatMap fun p =>
              (List.range n).map fun k => (p.channel, Value.int (Int64.ofNat k))) } := by
  unfold parallel at h
  split at h
  · obtain ⟨ps, hps, h⟩ := bind_ok h
    split at h
    · obtain ⟨cs, -, h⟩ := bind_ok h
      dsimp only at h
      split at h
      · cases h
      · cases h
        refine ⟨ps, _, fun p hp => ?_, rfl, rfl⟩
        obtain ⟨f, -, hf⟩ := mapM_ok hps p hp
        exact ⟨f, hf⟩
    · cases h
  · cases h

/-- A step that has no answer yet leaves the bench as it is. -/
theorem runs_ok {frames : List Frame} {action : Action} (h : b.perform frames given action = .ok r)
    (ha : action.Runs) : r.bench = b ∧ ∀ res, r.outcome ≠ .answer res := by
  cases action with
  | publish _ _ | tryPublish _ _ =>
    obtain ⟨p, c, v, -, -, -, -, rfl⟩ := publish_ok h
    exact ⟨rfl, nofun⟩
  | callSlot endpoint value =>
    obtain ⟨p, c, v, -, -, -, -, rfl⟩ := callSlot_ok h
    exact ⟨rfl, nofun⟩
  | panic kind text =>
    obtain ⟨p, rfl⟩ := panic_ok h
    exact ⟨rfl, nofun⟩
  | callCallback callback value =>
    obtain ⟨n, c, v, -, -, rfl⟩ := callCallback_ok h
    exact ⟨rfl, nofun⟩
  | emit signal value numbered =>
    obtain ⟨g, s, v, -, -, rfl⟩ := emit_ok h
    exact ⟨rfl, nofun⟩
  | thread steps =>
    obtain ⟨todo, -, rfl⟩ := thread_ok h
    exact ⟨rfl, nofun⟩
  | parallel endpoints count =>
    obtain ⟨ps, n, -, -, rfl⟩ := parallel_ok h
    exact ⟨rfl, nofun⟩
  | _ => cases ha

/-! ## Subscriptions and registries -/

theorem signal?_of_direction {c : Channel} (h : c.direction ≠ .output) : c.signal? = none := by
  unfold Channel.direction at h
  unfold Channel.signal?
  split
  · rfl
  · rename_i hr
    rw [hr] at h
    exact absurd rfl h

/-- All that a step of subscribing can come to. The directions have been checked, so the second end is an
input. -/
theorem subscribe_cases {output input name : Field} {via : Option Field}
    (h : b.subscribe output input name via = .ok r) :
    ∃ out inp, b.endpoint output = .ok out ∧ b.endpoint input = .ok inp ∧ b.world.signal? inp.channel = none ∧
      (b.answered (.alreadyConnected .oneToOne) = .ok r ∨
        ∃ s w, b.world.subscribe? out.channel inp.channel = some (s, w) ∧
          (∀ n, name = some n → b.handles.uses n = false) ∧
          answered { b with world := w, handles := name.elim b.handles fun n => b.handles.enter n (.own s) }
            (.subscribed s) = .ok r) := by
  obtain ⟨out, hout, h⟩ := bind_ok h
  obtain ⟨inp, hinp, h⟩ := bind_ok h
  dsimp only at h
  split at h
  · cases h
  · rename_i hfresh
    obtain ⟨o, ho, h⟩ := bind_ok h
    obtain ⟨i, hi, h⟩ := bind_ok h
    split at h
    · cases h
    · rename_i hdir
      -- The other end is no output, so it has no signal.
      have hin : b.world.signal? inp.channel = none := by
        rw [World.signal?, channelAt_eq hi, Option.bind_some]
        exact signal?_of_direction fun hd => hdir (.inr (.inl hd))
      refine ⟨out, inp, hout, hinp, hin, ?_⟩
      split at h
      · cases h
      · split at h
        · exact .inl h
        · rename_i s w hs
          refine .inr ⟨s, w, hs, ?_, ?_⟩
          · rintro n rfl
            simpa using hfresh
          · cases name <;> exact h

theorem register_ok {endpoint handle : Field} (h : b.register endpoint handle = .ok r) :
    ∃ p n a, b.endpoint endpoint = .ok p ∧ lookup b.handles handle = .ok (n, a) ∧
      answered { b with world := b.world.register p.channel a } .ok = .ok r := by
  obtain ⟨p, hp, h⟩ := bind_ok h
  obtain ⟨⟨n, a⟩, ha, h⟩ := bind_ok h
  exact ⟨p, n, a, hp, ha, h⟩

/-- What was registered under the number of the handle is let go. -/
theorem unregister_ok {endpoint handle : Field} (h : b.unregister pins endpoint handle = .ok r) :
    ∃ p n a, b.endpoint endpoint = .ok p ∧ lookup b.handles handle = .ok (n, a) ∧
      answered { b with world := b.world.unregister (b.keeps pins) p.channel (b.world.handleId a) } .ok = .ok r := by
  obtain ⟨p, hp, h⟩ := bind_ok h
  obtain ⟨⟨n, a⟩, ha, h⟩ := bind_ok h
  refine ⟨p, n, a, hp, ha, ?_⟩
  unfold World.unregister
  dsimp only at h
  rcases hget : (b.world.registry p.channel).get? (b.world.handleId a) with _ | removed
  · simp only [hget] at h ⊢
    exact h
  · simp only [hget] at h ⊢
    exact h

theorem removeFrom_ok {registry handle : Field} (h : b.removeFrom pins registry handle = .ok r) :
    ∃ n reg m a, lookup b.registries registry = .ok (n, reg) ∧ lookup b.handles handle = .ok (m, a) ∧
      (reg.get? (b.world.handleId a) = none ∧ b.answered (.flag false) = .ok r ∨
        ∃ removed, reg.get? (b.world.handleId a) = some removed ∧
          (settle { b with registries := b.registries.enter n (reg.erase (b.world.handleId a)) } pins
            (.handle removed)).answered (.flag true) = .ok r) := by
  obtain ⟨⟨n, reg⟩, hreg, h⟩ := bind_ok h
  obtain ⟨⟨m, a⟩, ha, h⟩ := bind_ok h
  refine ⟨n, reg, m, a, hreg, ha, ?_⟩
  dsimp only at h
  split at h
  · rename_i hnone
    exact .inl ⟨hnone, h⟩
  · rename_i removed hsome
    exact .inr ⟨removed, hsome, h⟩

/-! ## Signals -/

theorem newSignal_ok {name kind : Field} (h : b.newSignal name kind = .ok r) :
    ∃ n cardinality, fresh b.signals name = .ok n ∧
      (kind = some "many" ∧ cardinality = .oneToMany ∨ kind = some "one" ∧ cardinality = .oneToOne) ∧
      answered { b with
        signals := b.signals.enter n b.signalStates.length
        signalStates := b.signalStates ++ [{ cardinality }] } .ok = .ok r := by
  obtain ⟨n, hn, h⟩ := bind_ok h
  obtain ⟨k, hk, h⟩ := bind_ok h
  dsimp only at h
  split at h
  · exact ⟨n, .oneToMany, hn, .inl ⟨field_ok hk, rfl⟩, h⟩
  · exact ⟨n, .oneToOne, hn, .inr ⟨field_ok hk, rfl⟩, h⟩
  · cases h

theorem connect_ok {signal callback connection : Field} (h : b.connect signal callback connection = .ok r) :
    ∃ g s m c n, b.signalNamed signal = .ok (g, s) ∧ lookup b.callbacks callback = .ok (m, c) ∧
      fresh b.connections connection = .ok n ∧
      (s.connect? (.callback c) = none ∧ b.answered (.alreadyConnected s.cardinality) = .ok r ∨
        ∃ id s', s.connect? (.callback c) = some (id, s') ∧
          answered { b.setSignal g s' with connections := b.connections.enter n id } (.connection id) = .ok r) := by
  obtain ⟨⟨g, s⟩, hs, h⟩ := bind_ok h
  obtain ⟨⟨m, c⟩, hc, h⟩ := bind_ok h
  obtain ⟨n, hn, h⟩ := bind_ok h
  refine ⟨g, s, m, c, n, hs, hc, hn, ?_⟩
  dsimp only at h
  split at h
  · rename_i hnone
    exact .inl ⟨hnone, h⟩
  · rename_i id s' hsome
    exact .inr ⟨id, s', hsome, h⟩

theorem disconnect_ok {signal connection : Field} (h : b.disconnect signal connection = .ok r) :
    ∃ g s n id, b.signalNamed signal = .ok (g, s) ∧ lookup b.connections connection = .ok (n, id) ∧
      ((∃ s', s.disconnect? id = some s' ∧
          (setSignal { b with connections := b.connections.strike n } g s').answered .ok = .ok r) ∨
        s.disconnect? id = none ∧
          (note { b with connections := b.connections.strike n } (.event (.unknownSlot id))).answered .ok = .ok r) := by
  obtain ⟨⟨g, s⟩, hs, h⟩ := bind_ok h
  obtain ⟨⟨n, id⟩, hid, h⟩ := bind_ok h
  refine ⟨g, s, n, id, hs, hid, ?_⟩
  dsimp only at h
  split at h
  · rename_i s' hsome
    exact .inl ⟨s', hsome, h⟩
  · rename_i hnone
    exact .inr ⟨hnone, h⟩

theorem disconnectAt_ok {endpoint connection : Field} (h : b.disconnectAt endpoint connection = .ok r) :
    ∃ p n id, b.endpoint endpoint = .ok p ∧ lookup b.connections connection = .ok (n, id) ∧
      answered { b with
        connections := b.connections.strike n
        world := b.world.disconnectByHand p.channel id } .ok = .ok r := by
  obtain ⟨p, hp, h⟩ := bind_ok h
  obtain ⟨c, -, h⟩ := bind_ok h
  dsimp only at h
  split at h
  · cases h
  · obtain ⟨⟨n, id⟩, hid, h⟩ := bind_ok h
    exact ⟨p, n, id, hp, hid, h⟩

end Bench

end Conduit.Scenario
