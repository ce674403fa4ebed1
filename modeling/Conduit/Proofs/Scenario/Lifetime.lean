/-
How long a component lives. A component that has lost its last reference from outside dies when the outermost of
its handlers ends, by return or by panic, before anything below goes on. Its channels end with it unless something
else holds them, and close what they list; and nothing of a dead component is ever called again.
-/
import Conduit.Proofs.Scenario.Death

namespace Conduit.Scenario.Config

variable {c : Config} {k : ComponentId}

/-- The handler of the second component at work on a value, after it has dropped the only name of its own
component. -/
def departing : Config :=
  (({ publishing.tick.tick with focus := .start ⟨none, .drop (some "b")⟩ (some (.int 7)) } : Config).tick).tick

theorem reachable_departing : Reachable .any departing := by
  have htick : ∀ {c : Config}, Reachable .any c → Reachable .any c.tick := fun h =>
    .tail h (.tick fun step _ _ => step.action.within_any)
  have hpublish : Reachable .any (linked.next ⟨none, .publish (some "a.o0") (some (.int 7))⟩) :=
    .tail reachable_linked.any (.next rfl _)
  have hhandler : Reachable .any publishing.tick.tick := htick (htick (htick hpublish))
  exact htick (htick (.tail hhandler
    (.act (h := { slot := .handler 1 0, value := .int 7 }) rfl rfl ⟨none, .drop (some "b")⟩)))

end Conduit.Scenario.Config
