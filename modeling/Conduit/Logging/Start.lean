/-
Starting to log: the environment has its say, the configuration is checked, the filter is built, and
the directory for files is made. Logging starts once; after that every event goes to the console
and, if there is a directory, to a file.
-/
import Conduit.Location
import Conduit.Logging.Filter
import Conduit.Logging.Line

namespace Conduit.Logging

/-- Why a directory cannot be made beside the given files. -/
def directoryFault? (files : List String) (dir : String) : Option FileFault :=
  let taken := files.map Location.parts
  let path := Location.parts dir
  if taken.any fun file => file.length < path.length && file.isPrefixOf path then
    some .notADirectory
  else if taken.contains path then some .alreadyExists
  else none

/-- Logging that has started. -/
structure Running where
  config : Config
  filter : Filter
  deriving DecidableEq, Repr

namespace Running

/-- Whether events go to a file. -/
def hasFile (r : Running) : Bool := r.config.logDir.isSome

/-- The name of the file of a day. -/
def fileName (r : Running) (day : String) : Option String :=
  r.config.logDir.map fun dir =>
    Location.plain (dir ++ "/" ++ r.config.fileName ++ "." ++ day)

/-- Whether an event is shown. -/
def admits (r : Running) (e : Event) : Bool := r.filter.admits e.target e.level

/-- The lines that events leave on the console. -/
def console (r : Running) (events : List Event) : List String :=
  linesOf (String.join ((events.filter r.admits).map (consoleText r.config)))

/-- The lines that events leave in the file. -/
def file (r : Running) (events : List Event) : List String :=
  linesOf (String.join ((events.filter r.admits).map fun e => fileLine e ++ "\n"))

/-- The event that tells of the start. -/
def started (r : Running) : Event :=
  { level := .info, target := "chanlink::logging", message := "Logging system initialized"
    fields :=
      [("version", .quoted "0.1.0"), ("log_level", .bare r.config.level),
       ("format", .bare r.config.format.text), ("file_enabled", .bool r.hasFile)] }

/-- The events that tell of the end; only what has a file has something to finish. -/
def ended (r : Running) : List Event :=
  if r.hasFile then
    [{ level := .info, target := "chanlink::logging::handle"
       message := "Logging shutdown initiated" }]
  else []

/-- All events from the start to the end, with the given ones between them. -/
def session (r : Running) (events : List Event) : List Event := r.started :: events ++ r.ended

/-- The handle of logging that has started, as text. -/
def text (r : Running) : String :=
  Text.recordText "LoggingHandle" [("file_sink", Text.truth r.hasFile)]

end Running

/-- The filter that the environment asks for, or else the configuration. -/
def filterOf (c : Config) (env : List (String × String)) : Except LoggingFault Filter :=
  let asked := (env.find? (·.1 = "RUST_LOG")).bind fun (_, text) => Filter.ofText? text
  match asked with
  | some f => .ok f
  | none =>
    match Filter.ofText? c.directive with
    | some f => .ok f
    | none => .error (.invalidConfig ("invalid filter directive `" ++ c.directive ++ "`"))

/-- Gets everything ready for logging, with the lines of warning on the way. -/
def prepare (c : Config) (env : List (String × String)) (files : List String) :
    Except LoggingFault Running × List String :=
  let (c, warnings) := c.override env
  let result : Except LoggingFault Running := do
    c.validate
    let filter ← filterOf c env
    match c.logDir.bind (directoryFault? files) with
    | some cause => throw (.io cause)
    | none => return { config := c, filter }
  (result, warnings)

/-- What comes of an attempt to start while logging runs already. -/
def alreadyRunning : LoggingFault :=
  .init "a global default trace dispatcher has already been set"

/-- Starts logging, unless it runs already. -/
def start (running : Bool) (c : Config) (env : List (String × String)) (files : List String) :
    Except LoggingFault Running × List String :=
  let (result, warnings) := prepare c env files
  (if running then result.bind fun _ => .error alreadyRunning else result, warnings)

end Conduit.Logging
