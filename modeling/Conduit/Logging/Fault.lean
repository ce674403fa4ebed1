/-
Failures to set up logging.
-/
import Conduit.Fault
import Conduit.Text.Record

namespace Conduit

open Text (quoted recordText tupleText)

/-- A failure of the file system: one that the system reports under a number, or one described by
its kind and a text. -/
inductive FileFault
  | system (number : Nat) (kind text : String)
  | described (kind text : String)
  deriving DecidableEq, Repr

namespace FileFault

/-- The failure in words. -/
def text : FileFault → String
  | .system number _ text => s!"{text} (os error {number})"
  | .described _ text => text

/-- The failure as a value. -/
def detail : FileFault → String
  | .system number kind text =>
    recordText "Os" [("code", toString number), ("kind", kind), ("message", quoted text)]
  | .described kind text => recordText "Custom" [("kind", kind), ("error", quoted text)]

/-- The name is taken by something that is no directory. -/
def alreadyExists : FileFault := .system 17 "AlreadyExists" "File exists"

/-- A part of the way to the name is no directory. -/
def notADirectory : FileFault := .system 20 "NotADirectory" "Not a directory"

end FileFault

/-- Why logging is not set up. -/
inductive LoggingFault
  | invalidConfig (reason : String)
  | io (cause : FileFault)
  | init (reason : String)
  deriving DecidableEq, Repr

namespace LoggingFault

/-- The name of the cause. -/
def name : LoggingFault → String
  | .invalidConfig _ => "InvalidConfig"
  | .io _ => "Io"
  | .init _ => "Init"

instance : Fault LoggingFault where
  kind := "LoggingError"
  text
    | .invalidConfig reason => "invalid logging config: " ++ reason
    | .io cause => "log directory is not usable: " ++ cause.text
    | .init reason => "failed to install subscriber: " ++ reason
  detail
    | .invalidConfig reason => tupleText "InvalidConfig" [quoted reason]
    | .io cause => tupleText "Io" [cause.detail]
    | .init reason => tupleText "Init" [quoted reason]
  status
    | .invalidConfig _ => .invalidConfig
    | .io _ => .io
    | .init _ => .loggingInitFailed

end LoggingFault

end Conduit
