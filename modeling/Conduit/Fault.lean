/-
Faults: what every kind of failure can tell about itself. A kind of failure gives its texts; the
status, the text for those outside and the tags have defaults.
-/
import Conduit.Document
import Conduit.Status

namespace Conduit

/-- A kind of failure. -/
class Fault (ε : Type) where
  /-- The name of the kind. -/
  kind : String
  /-- What went wrong, in words. -/
  text : ε → String
  /-- The failure as a value, for logs. -/
  detail : ε → String
  /-- The category of the failure. -/
  status : ε → Status := fun _ => .internal
  /-- What is said to those outside; by default the words, but nothing about internal failures. -/
  publicText : ε → String := fun e => if (status e).isInternal then "Internal error" else text e
  /-- Tags to count failures by. -/
  tags : ε → List (String × String) := fun e =>
    [("error_type", kind), ("status_code", (status e).text)]

namespace Fault

variable {ε : Type} [Fault ε]

/-- The tags of a failure that goes under another name than its kind. -/
def tagsAs (kind : String) (status : Status) (more : List (String × String)) :
    List (String × String) :=
  [("error_type", kind), ("status_code", status.text)] ++ more

/-- A failure as an answer, under a name for its cause. -/
def answer (name : String) (e : ε) : Document :=
  Document.tableOf
    [("error", .text name), ("message", .text (text e)), ("code", .nat (status e).code)]

end Fault

end Conduit
