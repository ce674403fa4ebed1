/-
Registration of subscriptions. As long as nobody changes the registries of channels by hand, a
subscription is connected exactly as long as each of its ends lives and lists it, and no channel
lists a subscription that it is no end of. This holds in every configuration, so also while handlers
run, in the middle of emissions and after panics.
-/
import Conduit.Proofs.Scenario.Run

namespace Conduit.Scenario.Config

/-- Both ends tell whether a subscription is connected, and channels list their own subscriptions. -/
theorem registration_symmetric {c : Config} (h : Reachable .orderly c) :
    (∀ (s : Nat) sub, c.bench.world.subscription? s = some sub →
      (c.bench.world.isConnected s = true ↔
        c.bench.world.channelAlive sub.output = true ∧ (c.bench.world.registry sub.output).has s = true) ∧
      (c.bench.world.isConnected s = true ↔
        c.bench.world.channelAlive sub.input = true ∧ (c.bench.world.registry sub.input).has s = true)) ∧
    ∀ (ch : ChannelId) (s : Nat), (c.bench.world.registry ch).has s = true →
      ∃ sub, c.bench.world.subscription? s = some sub ∧ (ch = sub.output ∨ ch = sub.input) := by
  have hsym := h.symmetric
  have hsound := h.wellFormed.bench.scene.sound
  refine ⟨fun s sub hs =>
      ⟨hsym.isConnected_iff_listed hsound hs (.inl rfl), hsym.isConnected_iff_listed hsound hs (.inr rfl)⟩,
    fun ch s hlist => ?_⟩
  obtain ⟨sub, hs, -, hend⟩ := (hsym.listed ch s).1 (Registry.has_iff.1 hlist)
  exact ⟨sub, hs, hend⟩

/-- For instance of the only subscription there is. -/
theorem registration_symmetric_linked : linked.bench.world.isConnected 1 = true ∧
    ∃ sub, linked.bench.world.subscription? 1 = some sub ∧
      (linked.bench.world.channelAlive sub.output = true ∧ (linked.bench.world.registry sub.output).has 1 = true) ∧
      linked.bench.world.channelAlive sub.input = true ∧ (linked.bench.world.registry sub.input).has 1 = true := by
  have hc : linked.bench.world.isConnected 1 = true := by decide
  obtain ⟨sub, hs, -⟩ := (Option.any_eq_true _ _).1 hc
  have hends := (registration_symmetric reachable_linked).1 1 sub hs
  exact ⟨hc, sub, hs, hends.1.1 hc, hends.2.1 hc⟩

end Conduit.Scenario.Config
