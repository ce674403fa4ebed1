/-
Answers given at once. Only an emission that has come to its end tells of failed slots: whatever else a step
asks for, it is refused, or begins something, or has another answer.
-/
import Conduit.Proofs.Scenario.Performed

namespace Conduit.Scenario.Bench

/-- What has begun is not answered with a report of failed slots. -/
def Plain (r : Begun) : Prop := ∀ total messages, r.outcome ≠ .answer (.slotsFailed total messages)

variable {b : Bench} {r : Begun} {pins : Ref → Bool}

theorem plain_answered {res : Result} (h : b.answered res = .ok r)
    (hres : ∀ total messages, res ≠ .slotsFailed total messages) : Plain r := by
  intro total messages he
  cases h
  cases he
  exact hres _ _ rfl

/-! ## Answers that depend on what is found -/

theorem plain_subscribe {output input name : Field} {via : Option Field}
    (h : b.subscribe output input name via = .ok r) : Plain r := by
  obtain ⟨out, inp, -, -, -, h | ⟨s, w, -, -, h⟩⟩ := subscribe_cases h
  · exact plain_answered h nofun
  · exact plain_answered h nofun

theorem plain_removeFrom {registry handle : Field} (h : b.removeFrom pins registry handle = .ok r) : Plain r := by
  obtain ⟨n, reg, m, a, -, -, ⟨-, h⟩ | ⟨removed, -, h⟩⟩ := removeFrom_ok h
  · exact plain_answered h nofun
  · exact plain_answered h nofun

theorem plain_connect {signal callback connection : Field} (h : b.connect signal callback connection = .ok r) :
    Plain r := by
  obtain ⟨g, s, m, c, n, -, -, -, ⟨-, h⟩ | ⟨id, s', -, h⟩⟩ := connect_ok h
  · exact plain_answered h nofun
  · exact plain_answered h nofun

theorem plain_disconnect {signal connection : Field} (h : b.disconnect signal connection = .ok r) : Plain r := by
  obtain ⟨g, s, n, id, -, -, ⟨s', -, h⟩ | ⟨-, h⟩⟩ := disconnect_ok h
  · exact plain_answered h nofun
  · exact plain_answered h nofun

/-! ## Any step -/

/-- No step is answered with a report of failed slots at once. -/
theorem perform_plain {frames : List Frame} {given : Option Value} {action : Action}
    (h : b.perform frames given action = .ok r) : Plain r := by
  cases action with
  -- Those that only look, and those that have no answer yet.
  | inspect _ | group _ | handleInfo _ | downcast _ _ _ | has _ _ | contains _ _ | registryInfo _ | callbackInfo _
  | signalInfo _ =>
    obtain ⟨res, h, hres⟩ := looks_ok h trivial
    exact plain_answered h hres
  | publish _ _ | tryPublish _ _ | callSlot _ _ | panic _ _ | callCallback _ _ | emit _ _ _ | thread _
  | parallel _ _ => exact fun total messages => (runs_ok h trivial).2 _
  -- Those that look up one, two or three names and have an answer then, whatever they have found.
  | drop _ | release _ | close _ | dropHandle _ | dropRegistry _ | closeAll _ | dropSignal _ | dropCallback _
  | newRegistry _ | newCallback _ _ =>
    obtain ⟨x, -, h⟩ := bind_ok h
    exact plain_answered h nofun
  | keep _ _ | cloneHandle _ _ | forge _ _ | addTo _ _ =>
    obtain ⟨x, -, h⟩ := bind_ok h
    obtain ⟨y, -, h⟩ := bind_ok h
    exact plain_answered h nofun
  | hold name endpoint =>
    obtain ⟨g, -, h⟩ := bind_ok h
    obtain ⟨p, -, h⟩ := bind_ok h
    obtain ⟨n, -, h⟩ := bind_ok h
    exact plain_answered h nofun
  | create name layout rules =>
    obtain ⟨n, l, -, -, h⟩ := create_ok h
    exact plain_answered h nofun
  | register endpoint handle =>
    obtain ⟨p, n, a, -, -, h⟩ := register_ok h
    exact plain_answered h nofun
  | unregister endpoint handle =>
    obtain ⟨p, n, a, -, -, h⟩ := unregister_ok h
    exact plain_answered h nofun
  | newSignal name kind =>
    obtain ⟨n, cardinality, -, -, h⟩ := newSignal_ok h
    exact plain_answered h nofun
  | disconnectAt endpoint connection =>
    obtain ⟨p, n, id, -, -, h⟩ := disconnectAt_ok h
    exact plain_answered h nofun
  -- Those whose answer depends on what they have found.
  | subscribe output input name via => exact plain_subscribe h
  | removeFrom registry handle => exact plain_removeFrom h
  | connect signal callback connection => exact plain_connect h
  | disconnect signal connection => exact plain_disconnect h
  | unknown => cases h

end Conduit.Scenario.Bench
