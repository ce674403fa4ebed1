/-
Notices of notifiers as documents.
-/
import Conduit.Document.Event
import Conduit.Notifier.Periodic
import Conduit.Notifier.Task

namespace Conduit.Notifier

/-- A notice as an entry of a log. -/
def Notice.toDocument : Notice → Document
  | .called callback tick => .list [.text "cb", .nat callback, .nat tick]
  | .connected callback count => .list [.text "connected", .nat callback, .nat count]
  | .probed ticks failures callbacks running =>
    .list [.text "probe", .nat ticks, .nat failures, .nat callbacks, .bool running]
  | .dropped => .list [.text "dropped"]
  | .failed reason => eventDocument .error "Notifier callback panicked" [("reason", .text reason)]
  | .workerFailed => eventDocument .error "Notifier worker terminated abnormally" []
  | .stopped ticks => eventDocument .debug "Periodic notifier stopped" [("ticks", .nat ticks)]

/-- How a task ended, in a word. -/
def Ending.text : Ending → String
  | .panicked => "panicked"
  | .cancelled => "cancelled"

/-- The act that a word stands for. A word that says nothing is idle. -/
def Act.ofText (s : String) : Act :=
  match s with
  | "connect" => .connect
  | "probe" => .probe
  | "stop" => .stop
  | "drop" => .drop
  | "panic_any" => .panic .other
  | _ =>
    if s.startsWith "sleep:" then .sleep ((s.drop 6).toNat?.getD 0)
    else if s.startsWith "panic:" then .panic (.text (s.drop 6).toString)
    else .idle

end Conduit.Notifier
