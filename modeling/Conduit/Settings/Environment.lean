/-
Settings from the environment. Variables whose names begin with the prefix, in capitals or not, are
settings; two underscores in a name separate the keys of the path. A text that reads as a truth
value or a number counts as one.
-/
import Conduit.Binary64.Decimal
import Conduit.Settings.Path
import Conduit.Text.Lowercase

namespace Conduit.Settings

/-- The beginning of the names of the variables that are settings. -/
def environmentPrefix : String := "chanlink_"

/-- What the environment is called as the place of a value. -/
def environmentName : String := "the environment"

/-- A whole number that fits 64 bits with a sign. -/
def signed64? (s : String) : Option Int :=
  (Numeral.integer? s.toList).bind fun i => if Numeral.fitsSigned i then some i else none

/-- What the text of a variable stands for. -/
def scalarOf (s : String) : Scalar :=
  let word := Text.lowercase s
  if word = "true" then .bool true
  else if word = "false" then .bool false
  else match signed64? s with
    | some i => .int i
    | none =>
      match Binary64.ofText? s with
      | some x => .float x
      | none => .text s

/-- Puts a dot for every two underscores, from the left. -/
def dotted : List Char → List Char
  | '_' :: '_' :: rest => '.' :: dotted rest
  | c :: rest => c :: dotted rest
  | [] => []

/-- The path of a variable that is a setting. -/
def variablePath? (name : String) : Option String :=
  let cs := (Text.lowercase name).toList
  let start := environmentPrefix.toList
  if start.isPrefixOf cs then some (String.ofList (dotted (cs.drop start.length))) else none

/-- Lays the settings of the environment over a tree, one variable after another. -/
def overlayEnvironment (env : List (String × String)) (under : Tree) : Tree :=
  env.foldl (fun t (name, value) =>
    match variablePath? name with
    | none => t
    | some path =>
      Tree.overlayAt (.scalar (scalarOf value) (some environmentName)) (pathOf path) t) under

end Conduit.Settings
