/-
Loading settings: the defaults, then a file, then the environment, each laid over what came before.
-/
import Conduit.Settings.Coercion
import Conduit.Settings.Environment
import Conduit.Settings.File
import Conduit.Settings.Record

namespace Conduit.Settings

/-- The layer of defaults. -/
def defaults : Tree :=
  Tree.overlayAt (.scalar (.int 1000) none) (pathOf "notifier.interval_ms") Tree.emptyTable

/-- All layers, with or without a file. -/
def layers (env : List (String × String)) (files : List (String × String)) (path : Option String) :
    Except LoadFault Tree := do
  let t ← match path with
    | none => pure defaults
    | some path => overlayFile files path defaults
  return overlayEnvironment env t

/-- Loads the settings and looks whether they can be used. -/
def load (env : List (String × String)) (files : List (String × String)) (path : Option String) :
    Except SettingsFault Record :=
  match layers env files path with
  | .error e => .error (.load e)
  | .ok tree =>
    match Record.schema.readLenient tree {} with
    | .error e => .error (.load e)
    | .ok s => s.validate

end Conduit.Settings
