/-
Failures to start a notifier.
-/
import Conduit.Fault
import Conduit.Text.Record

namespace Conduit

open Text (quoted recordText)

/-- Why a notifier does not start. -/
inductive NotifierFault
  | invalidInterval
  | spawnFailed (reason : String)
  deriving DecidableEq, Repr

instance : Fault NotifierFault where
  kind := "NotifierError"
  text
    | .invalidInterval => "trigger interval must be greater than zero"
    | .spawnFailed reason => "failed to spawn notifier worker: " ++ reason
  detail
    | .invalidInterval => "InvalidInterval"
    | .spawnFailed reason => recordText "SpawnFailed" [("reason", quoted reason)]
  status
    | .invalidInterval => .invalidInterval
    | .spawnFailed _ => .workerSpawnFailed

end Conduit
