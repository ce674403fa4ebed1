/-
TOML documents as a sequence of statements: headers of tables, headers of items of lists of tables,
and entries. The statements are put together one after another; a table may be opened once, and
dotted keys reach into tables that dotted keys have made.
-/
import Conduit.Document

namespace Conduit.Document.Toml

/-- A statement of a document. -/
inductive Statement
  | entry (path : List String) (value : Document)
  | table (path : List String)
  | item (path : List String)

/-- How a table came about: on the way to another, by its own header, or by dotted keys. -/
inductive Made
  | onTheWay
  | byHeader
  | byKeys
  deriving DecidableEq

/-- A part of a document under construction. -/
inductive Node
  | value (d : Document)
  | table (made : Made) (entries : List (String × Node))
  /-- A list of tables, each with a header of its own. -/
  | items (tables : List (List (String × Node)))

/-- The entries of a table under construction. -/
abbrev Entries := List (String × Node)

/-- What stands under a key. -/
def Entries.get? (t : Entries) (key : String) : Option Node := (t.find? (·.1 = key)).map (·.2)

/-- Changes the table at the end of a path of headers; tables that are missing on the way are made.
Of a list of tables the last one is meant. -/
def within (f : Entries → Option Entries) : List String → Entries → Option Entries
  | [], t => f t
  | key :: rest, t =>
    match Entries.get? t key with
    | none => (within f rest []).map fun u => put key (.table .onTheWay u) t
    | some (.table made u) => (within f rest u).map fun u => put key (.table made u) t
    | some (.items tables) =>
      (within f rest (tables.getLastD [])).map fun u => put key (.items (tables.dropLast ++ [u])) t
    | some (.value _) => none

/-- Opens a table by its header. -/
def openTable (key : String) (t : Entries) : Option Entries :=
  match t.get? key with
  | none => some (put key (.table .byHeader []) t)
  | some (.table .onTheWay u) => some (put key (.table .byHeader u) t)
  | some _ => none

/-- Opens one more item of a list of tables. -/
def openItem (key : String) (t : Entries) : Option Entries :=
  match t.get? key with
  | none => some (put key (.items [[]]) t)
  | some (.items tables) => some (put key (.items (tables ++ [[]])) t)
  | some _ => none

/-- Puts a value at the end of a path of keys, where nothing may be yet. -/
def putAt (value : Node) : List String → Entries → Option Entries
  | [], _ => none
  | [key], t => if (Entries.get? t key).isSome then none else some (put key value t)
  | key :: rest, t =>
    match Entries.get? t key with
    | none => (putAt value rest []).map fun u => put key (.table .byKeys u) t
    | some (.table .byKeys u) => (putAt value rest u).map fun u => put key (.table .byKeys u) t
    | some (.table .onTheWay u) =>
      if rest.length = 1 then none
      else (putAt value rest u).map fun u => put key (.table .onTheWay u) t
    | some _ => none

/-- A path split before its last key. -/
def splitLast (path : List String) : Option (List String × String) :=
  path.getLast?.map fun key => (path.dropLast, key)

/-- Puts statements together. `here` is the path of the table that entries go to. -/
def assemble : List Statement → List String → Entries → Option Entries
  | [], _, t => some t
  | .entry path value :: rest, here, t => do
    assemble rest here (← within (putAt (.value value) path) here t)
  | .table path :: rest, _, t => do
    let (way, key) ← splitLast path
    assemble rest path (← within (openTable key) way t)
  | .item path :: rest, _, t => do
    let (way, key) ← splitLast path
    assemble rest path (← within (openItem key) way t)

mutual

/-- The document of a part. -/
def Node.document : Node → Document
  | .value d => d
  | .table _ entries => .table (documents entries)
  | .items tables => .list (tableDocuments tables)

/-- The documents of entries. -/
def documents : List (String × Node) → List (String × Document)
  | [] => []
  | (key, n) :: rest => (key, n.document) :: documents rest

/-- The documents of tables. -/
def tableDocuments : List (List (String × Node)) → List Document
  | [] => []
  | t :: rest => .table (documents t) :: tableDocuments rest

end

/-- The document that statements make. -/
def ofStatements? (statements : List Statement) : Option Document :=
  (assemble statements [] []).map fun t => .table (documents t)

/-- The table that the entries of a table in braces make. -/
def inlineTable? (entries : List (List String × Document)) : Option Document :=
  (entries.foldlM (fun t (path, value) => putAt (.value value) path t) ([] : Entries)).map fun t =>
    .table (documents t)

end Conduit.Document.Toml
