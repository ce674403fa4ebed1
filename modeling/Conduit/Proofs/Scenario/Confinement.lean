/-
What a closing changes, and nothing else. Whenever a subscription is closed, by a step of whatever
program, in a handler or while a channel is drained, the closing is confined to the subscription and
to those of its two ends that live. A subscription that is closed as soon as it is made leaves nothing
behind but that its numbers are used up.
-/
import Conduit.Proofs.Scenario.Closing
import Conduit.Proofs.Wiring.Confined

namespace Conduit.Scenario

open World (Confined License Moment Restored)

namespace Config

variable {may : License} {c : Config}

/-- Closing a connected subscription is `Confined`, at any moment of any history, and doing so once
more changes nothing; a step that closes changes the wiring only. A step that subscribes can be undone
by closing (`Restored`), and beside the wiring it enters a name for the handle at most. -/
theorem close_confined (hc : Reachable may c) {dying : Option ChannelId} {w : World}
    (hm : Moment c.bench.world dying w) :
    (∀ (s : Nat) o i p, w.subscription? s = some ⟨o, i, some p⟩ → Confined w (w.close s) s o i p) ∧
    (∀ s, (w.close s).close s = w.close s) ∧
    (∀ name s given, c.bench.handles.find? name = some (.own s) →
      c.bench.perform c.frames given (.close (some name)) =
        .ok { bench := { c.bench with world := c.bench.world.close s }, outcome := .answer .ok }) ∧
    ∀ given output input name via r n,
      c.bench.perform c.frames given (.subscribe output input name via) = .ok r →
      r.outcome = .answer (.subscribed n) →
      { r.bench with world := c.bench.world, handles := c.bench.handles } = c.bench ∧
        ∃ o i, Restored c.bench.world (r.bench.world.close n) o i := by
  have hbench := hc.wellFormed.bench
  have hsound := hm.sound hbench.scene.sound
  have hplaced := hm.placed hbench.scene.placed
  refine ⟨fun s o i p hs => World.confined_close hsound hplaced hs, fun s => World.close_close w s, ?_, ?_⟩
  · intro name s given hname
    show c.bench.close (some name) = _
    rw [Bench.close, Bench.lookup_of_find? hname]
    rfl
  · intro given output input name via r n hr hout
    -- A subscription has come about or the output has refused.
    obtain ⟨out, inp, ho, hi, hin, h | ⟨s, w, hs, -, h⟩⟩ := Bench.subscribe_cases hr
    · cases h
      cases hout
    · cases h
      cases hout
      refine ⟨rfl, out.channel, inp.channel, ?_⟩
      exact World.restored_close hbench.scene.sound hbench.scene.placed (Bench.endpoint_channelAlive hbench ho)
        (Bench.endpoint_channelAlive hbench hi) hin hs

/-- For instance this happens to the only subscription there is, and then its input lists nothing. -/
theorem close_confined_linked : Confined linked.bench.world (linked.bench.world.close 1) 1 1 2 1 ∧
    ((linked.bench.world.close 1).registry 2).ids = [] ∧ (linked.bench.world.registry 2).ids = [1] := by
  obtain ⟨hclose, -, -, -⟩ := close_confined reachable_linked (.act .refl)
  exact ⟨hclose 1 1 2 1 (by decide), by decide, by decide⟩

end Config

end Conduit.Scenario
