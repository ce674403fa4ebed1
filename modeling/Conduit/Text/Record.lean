/-
Values of structures as text: the name of the structure, and its fields by name or by position.
-/
import Conduit.Text.Quoted

namespace Conduit.Text

/-- A truth value, in words. -/
def truth (b : Bool) : String := if b then "true" else "false"

/-- A structure with named fields. -/
def recordText (name : String) (fields : List (String × String)) : String :=
  name ++ " \x7b " ++ ", ".intercalate (fields.map fun (k, v) => k ++ ": " ++ v) ++ " \x7d"

/-- A structure whose fields go by position. -/
def tupleText (name : String) (fields : List String) : String :=
  name ++ "(" ++ ", ".intercalate fields ++ ")"

/-- A list. -/
def listText (items : List String) : String := "[" ++ ", ".intercalate items ++ "]"

end Conduit.Text
