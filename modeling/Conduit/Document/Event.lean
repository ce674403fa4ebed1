/-
Reported events as documents.
-/
import Conduit.Document
import Conduit.Level

namespace Conduit

/-- An event with its level, message and fields. -/
def eventDocument (level : Level) (message : String) (fields : List (String × Document)) :
    Document :=
  .list [.text "ev", .text level.name, .text message, Document.tableOf fields]

end Conduit
