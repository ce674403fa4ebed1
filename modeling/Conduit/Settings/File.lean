/-
Settings from files. The format of a file is told by the end of its name. A name that is no file
stands for the first file that has it with the end of a known format added.
-/
import Conduit.Document.Ini
import Conduit.Document.Json
import Conduit.Document.Json5
import Conduit.Document.Ron
import Conduit.Document.Toml.Reading
import Conduit.Document.Yaml.Block
import Conduit.Location
import Conduit.Settings.Fault
import Conduit.Settings.Path

namespace Conduit.Settings

/-- The formats of settings files. -/
inductive FileFormat
  | toml
  | json
  | yaml
  | ini
  | ron
  | json5
  deriving DecidableEq, Repr

namespace FileFormat

/-- The ends of file names, without the dot, in the order in which they are tried. -/
def extensions : List (String × FileFormat) :=
  [("toml", .toml), ("json", .json), ("yaml", .yaml), ("yml", .yaml), ("ini", .ini), ("ron", .ron),
   ("json5", .json5)]

/-- The format of an end of a name. -/
def ofExtension? (extension : String) : Option FileFormat :=
  (extensions.find? (·.1 = extension)).map (·.2)

/-- The document of a text in a format. -/
def parse? : FileFormat → String → Option Document
  | .toml, text => Document.Toml.parse? text
  | .json, text => Document.Json.parse? text
  | .yaml, text => Document.Yaml.parse? text
  | .ini, text => Document.Ini.parse? text
  | .ron, text => Document.Ron.parse? text
  | .json5, text => Document.Json5.parse? text

end FileFormat

/-- What follows the last dot of a file name; a dot at the beginning does not count. -/
def extensionOf (name : String) : String :=
  let back := name.toList.reverse
  match back.dropWhile (· != '.') with
  | _ :: _ :: _ => String.ofList (back.takeWhile (· != '.')).reverse
  | _ => ""

/-- The text of a file of that name. -/
def fileText? (files : List (String × String)) (path : String) : Option String :=
  (files.find? fun (name, _) => Location.plain name = path).map (·.2)

/-- The file that a path means, with its format and its text. -/
def resolve (files : List (String × String)) (path : String) :
    Except LoadFault (String × FileFormat × String) :=
  let plain := Location.plain path
  let exact := if path.endsWith "/" then none else fileText? files plain
  match exact with
  | some text =>
    match FileFormat.ofExtension? (extensionOf ((Location.parts path).getLastD "")) with
    | some format => .ok (plain, format, text)
    | none => .error .unsupported
  | none =>
    let found := FileFormat.extensions.findSome? fun (extension, format) =>
      let name := plain ++ "." ++ extension
      (fileText? files name).map fun text => (name, format, text)
    match found with
    | some file => .ok file
    | none => .error (.foreign ("configuration file \x22" ++ path ++ "\x22 not found"))

/-- A text without the mark that may begin a file. -/
def withoutMark (text : String) : String :=
  match text.toList with
  | '\ufeff' :: rest => String.ofList rest
  | _ => text

/-- Lays the settings of a file over a tree. The keys of the outermost table are paths. -/
def overlayFile (files : List (String × String)) (path : String) (under : Tree) :
    Except LoadFault Tree := do
  let (name, format, text) ← resolve files path
  match format.parse? (withoutMark text) with
  | some (.table entries) =>
    return entries.foldl (fun t (key, d) =>
      Tree.overlayAt (Tree.ofDocument (some name) d) (pathOf key) t) under
  | _ => throw .malformed

end Conduit.Settings
