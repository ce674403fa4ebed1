/-
The configuration of logging: how events are written to the console, and where log files go.
-/
import Conduit.Document
import Conduit.Logging.Fault
import Conduit.Schema
import Conduit.Text.Blank

namespace Conduit.Logging

/-- How events are written to the console. -/
inductive Format
  | json
  | pretty
  | compact
  deriving DecidableEq, Repr

namespace Format

/-- The word for a format. -/
def text : Format → String
  | .json => "json"
  | .pretty => "pretty"
  | .compact => "compact"

/-- The name of a format. -/
def name : Format → String
  | .json => "Json"
  | .pretty => "Pretty"
  | .compact => "Compact"

/-- The formats, by their words. -/
def all : List (String × Format) := [.json, .pretty, .compact].map fun f => (f.text, f)

/-- The format of a word; capitals of ASCII count as small letters. -/
def ofText? (s : String) : Except LoggingFault Format :=
  let word := String.ofList (s.toList.map Char.toLower)
  match all.find? (·.1 = word) with
  | some (_, f) => .ok f
  | none => .error (.invalidConfig ("unknown log format `" ++ word ++ "`"))

end Format

/-- The configuration of logging. Events always go to the console, and to files when there is a
directory for them. -/
structure Config where
  level : String := "info"
  format : Format := .pretty
  withTarget : Bool := true
  withThreadIds : Bool := false
  withAnsi : Bool := true
  logDir : Option String := none
  fileName : String := "chanlink.log"
  deriving DecidableEq, Repr

namespace Config

/-- The fields of a configuration that is a part of a record of type `σ`. -/
def fields (within : (Config → Config) → σ → σ) : List (String × Field σ) :=
  [("level", .text fun v => within fun c => { c with level := v }),
   ("format", .choice "LogFormat" (Format.all.map fun (word, f) =>
      (word, within fun c => { c with format := f }))),
   ("with_target", .truth fun v => within fun c => { c with withTarget := v }),
   ("with_thread_ids", .truth fun v => within fun c => { c with withThreadIds := v }),
   ("with_ansi", .truth fun v => within fun c => { c with withAnsi := v }),
   ("log_dir", .path fun v => within fun c => { c with logDir := v }),
   ("file_name", .text fun v => within fun c => { c with fileName := v })]

/-- The schema of a configuration. -/
def schema : Field Config := .record "LoggingConfig" (fields id)

/-- The words for the levels that a configuration may name. -/
def levels : List String := ["trace", "debug", "info", "warn", "error"]

/-- Whether a configuration can be used. -/
def validate (c : Config) : Except LoggingFault Unit :=
  if !levels.contains c.level then
    .error (.invalidConfig ("unknown log level `" ++ c.level ++ "`"))
  else if c.logDir.isSome && c.fileName.toList.all Text.isBlank then
    .error (.invalidConfig "file_name must not be empty when log_dir is set")
  else .ok ()

/-- A configuration with what the environment puts in place of its parts, and the lines of warning
for what is not understood there. -/
def override (c : Config) (env : List (String × String)) : Config × List String :=
  let find (name : String) := (env.find? (·.1 = name)).map (·.2)
  let c := match find "CHANLINK_LOG_LEVEL" with
    | some level => { c with level := String.ofList (level.toList.map Char.toLower) }
    | none => c
  let (c, warnings) := match find "CHANLINK_LOG_FORMAT" with
    | none => (c, [])
    | some word =>
      match Format.ofText? word with
      | .ok format => ({ c with format }, [])
      | .error e => (c, ["Ignoring CHANLINK_LOG_FORMAT: " ++ Fault.text e])
  let c := match find "CHANLINK_LOG_DIR" with
    | some dir => { c with logDir := some dir }
    | none => c
  (c, warnings)

/-- The directive by which events are filtered when nothing else says how. -/
def directive (c : Config) : String := c.level

/-- A configuration as a document. -/
def toDocument (c : Config) : Document :=
  Document.tableOf
    [("level", .text c.level), ("format", .text c.format.text),
     ("with_target", .bool c.withTarget), ("with_thread_ids", .bool c.withThreadIds),
     ("with_ansi", .bool c.withAnsi), ("log_dir", Document.textOrNull c.logDir),
     ("file_name", .text c.fileName)]

end Config

end Conduit.Logging
