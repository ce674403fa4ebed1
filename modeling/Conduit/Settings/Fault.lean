/-
Failures to load settings.
-/
import Conduit.Fault
import Conduit.Text.Record

namespace Conduit.Settings

open Text (quoted recordText tupleText)

/-- Why the layers of settings do not come to a record. -/
inductive LoadFault
  /-- Something that is told by a text alone. -/
  | message (text : String)
  | notFound (key : String)
  /-- A value of the wrong kind, with its key and the place it came from. -/
  | type (found expected : String) (key origin : Option String)
  /-- Another failure, at a key. -/
  | at (cause : LoadFault) (key : String)
  /-- A failure outside of the settings. -/
  | foreign (text : String)
  /-- A file of a format that is not known. -/
  | unsupported
  /-- A file that does not follow its format. -/
  | malformed
  deriving DecidableEq, Repr

namespace LoadFault

/-- The name of the cause. -/
def name : LoadFault → String
  | .message _ => "Message"
  | .notFound _ => "NotFound"
  | .type _ _ _ _ => "Type"
  | .at _ _ => "At"
  | .foreign _ => "Foreign"
  | .unsupported => "Foreign"
  | .malformed => "FileParse"

/-- What went wrong, in words. -/
def text : LoadFault → String
  | .message text => text
  | .notFound key => "missing configuration field " ++ quoted key
  | .type found expected key origin =>
    "invalid type: " ++ found ++ ", expected " ++ expected ++
    ((key.map fun k => s!" for key `{k}`").getD "") ++ ((origin.map (" in " ++ ·)).getD "")
  | .at cause key => cause.text ++ s!" for key `{key}`"
  | .foreign text => text
  | .unsupported => "the file is not of a supported file format"
  | .malformed => "the file does not follow its format"

/-- Whether the words of the failure are its own, and not those of a file format. -/
def hasText : LoadFault → Bool
  | .unsupported | .malformed => false
  | _ => true

/-- A key with another in front: a place of a list follows without a dot. -/
def joinKey (front : String) (key : Option String) : String :=
  match key with
  | none => front
  | some key => if key.startsWith "[" || key.isEmpty then front ++ key else front ++ "." ++ key

/-- Puts the key of a table in front of the place of a failure. -/
def under (front : String) : LoadFault → LoadFault
  | .at cause key => .at cause (joinKey front (some key))
  | .type found expected key origin => .type found expected (some (joinKey front key)) origin
  | .notFound key => .notFound (joinKey front (some key))
  | e => .at e front

/-- Puts a place in a list in front of the place of a failure. -/
def underIndex (i : Nat) : LoadFault → LoadFault
  | .at cause key => .at cause (s!"[{i}]" ++ key)
  | .type found expected key origin => .type found expected (some (s!"[{i}]" ++ key.getD "")) origin
  | .notFound key => .notFound (s!"[{i}]" ++ key)
  | e => .at e s!"[{i}]"

end LoadFault

end Settings

open Text (quoted recordText tupleText)

/-- Why there are no settings. -/
inductive SettingsFault
  | load (cause : Settings.LoadFault)
  /-- A setting with a value that is not allowed. -/
  | invalid (key reason : String)
  deriving DecidableEq, Repr

namespace SettingsFault

/-- The name of the cause. -/
def name : SettingsFault → String
  | .load cause => cause.name
  | .invalid _ _ => "Invalid"

instance : Fault SettingsFault where
  kind := "SettingsError"
  text
    | .load cause => "failed to load settings: " ++ cause.text
    | .invalid key reason => s!"invalid setting `{key}`: {reason}"
  detail
    | .load cause => tupleText "Load" [cause.text]
    | .invalid key reason => recordText "Invalid" [("key", quoted key), ("reason", quoted reason)]
  status _ := .invalidConfig

end SettingsFault

end Conduit
