/-
Settings: the interval of the notifier and the configuration of logging.
-/
import Conduit.Duration
import Conduit.Logging.Config
import Conduit.Settings.Fault

namespace Conduit.Settings

/-- The settings of the notifier. -/
structure Notifier where
  intervalMs : Nat := 1000
  deriving DecidableEq, Repr

/-- All settings. -/
structure Record where
  notifier : Notifier := {}
  logging : Logging.Config := {}
  deriving DecidableEq, Repr

namespace Record

/-- The schema of the settings. -/
def schema : Field Record :=
  .record "Settings"
    [("notifier", .record "NotifierSettings"
       [("interval_ms", .count fun v s => { s with notifier := { intervalMs := v } })]),
     ("logging", .record "LoggingConfig"
       (Logging.Config.fields fun f s => { s with logging := f s.logging }))]

/-- The interval of the notifier. -/
def interval (s : Record) : Duration := .ofMilliseconds s.notifier.intervalMs

/-- Whether the settings can be used: the notifier needs time between its ticks. -/
def validate (s : Record) : Except SettingsFault Record :=
  if s.notifier.intervalMs = 0 then
    .error (.invalid "notifier.interval_ms" "must be greater than zero")
  else .ok s

/-- The settings as a document. -/
def toDocument (s : Record) : Document :=
  Document.tableOf
    [("notifier", Document.tableOf [("interval_ms", .nat s.notifier.intervalMs)]),
     ("logging", s.logging.toDocument)]

end Record

end Conduit.Settings
