/-
Trees of settings: what the layers of a configuration come to. Every value knows where it came
from. A layer is laid over a tree key by key: tables are merged, anything else is replaced, and a
table that comes where no table was starts from an empty one, which comes from nowhere.
-/
import Conduit.Document

namespace Conduit.Settings

/-- A value without parts. -/
inductive Scalar
  | null
  | bool (b : Bool)
  | int (i : Int)
  | float (x : Binary64)
  | text (s : String)
  deriving DecidableEq, Repr

/-- A value of a tree, with the place it came from, when it came from one. -/
inductive Tree
  | scalar (value : Scalar) (origin : Option String)
  | list (items : List Tree) (origin : Option String)
  | table (entries : List (String × Tree)) (origin : Option String)
  deriving Repr, Inhabited

namespace Tree

/-- What stands where nothing was put. -/
def nothing : Tree := .scalar .null none

/-- A table with nothing in it. -/
def emptyTable : Tree := .table [] none

mutual

/-- The tree of a document from one place. -/
def ofDocument (origin : Option String) : Document → Tree
  | .null => .scalar .null origin
  | .bool b => .scalar (.bool b) origin
  | .int i => .scalar (.int i) origin
  | .float x => .scalar (.float x) origin
  | .text s => .scalar (.text s) origin
  | .list items => .list (ofItems origin items) origin
  | .table entries => .table (ofEntries origin entries) origin

/-- The trees of documents from one place. -/
def ofItems (origin : Option String) : List Document → List Tree
  | [] => []
  | d :: rest => ofDocument origin d :: ofItems origin rest

/-- The entries of a table from one place. -/
def ofEntries (origin : Option String) : List (String × Document) → List (String × Tree)
  | [] => []
  | (k, d) :: rest => (k, ofDocument origin d) :: ofEntries origin rest

end

/-- The entries of a table; anything else counts as a table with nothing in it. -/
def entries : Tree → List (String × Tree)
  | .table entries _ => entries
  | _ => []

/-- The place a tree came from. -/
def origin : Tree → Option String
  | .scalar _ origin => origin
  | .list _ origin => origin
  | .table _ origin => origin

/-- Whether a tree is a table. -/
def isTable : Tree → Bool
  | .table _ _ => true
  | _ => false

/-- The tree itself if it is a table, else an empty one. -/
def asTable (t : Tree) : Tree := if t.isTable then t else emptyTable

/-- What stands under a key. -/
def get? (t : Tree) (key : String) : Option Tree := (t.entries.find? (·.1 = key)).map (·.2)

/-- Changes what stands under a key of a table. -/
def modify (t : Tree) (key : String) (f : Tree → Tree) : Tree :=
  .table (Document.put key (f ((t.get? key).getD nothing)) t.entries) t.asTable.origin

mutual

/-- Lays a tree over another. -/
def overlay (under : Tree) : Tree → Tree
  | .table entries _ => overlayEntries under.asTable entries
  | .scalar value origin => .scalar value origin
  | .list items origin => .list items origin

/-- Lays entries over those of a table, one after another. -/
def overlayEntries (under : Tree) : List (String × Tree) → Tree
  | [] => under
  | (key, t) :: rest =>
    let entry := overlay ((under.get? key).getD nothing) t
    overlayEntries (.table (Document.put key entry under.entries) under.origin) rest

end

/-! ## Paths -/

/-- A step on the way into a tree: a key of a table, or a place in a list, which counts from the
end when it is negative. -/
inductive Step
  | key (name : String)
  | index (i : Int)
  deriving DecidableEq, Repr

/-- The items of a list with a place for the index, and the number of that place. A list that is too
short grows at its end, or at its front for an index that counts from the end. -/
def reach (items : List Tree) (i : Int) : List Tree × Nat :=
  if 0 ≤ i then
    (items ++ List.replicate (i.toNat + 1 - items.length) nothing, i.toNat)
  else if i.natAbs ≤ items.length then (items, items.length - i.natAbs)
  else (List.replicate (i.natAbs - items.length) nothing ++ items, 0)

/-- Lays a tree over what stands at the end of a path. What is on the way and does not fit is
replaced. -/
def overlayAt (layer : Tree) : List Step → Tree → Tree
  | [], under => overlay under layer
  | .key name :: rest, under =>
    (under.asTable).modify name (overlayAt layer rest)
  | .index i :: rest, under =>
    let items := match under with
      | .list items _ => items
      | _ => []
    let origin := match under with
      | .list _ origin => origin
      | _ => none
    let (items, n) := reach items i
    .list (items.modify n (overlayAt layer rest)) origin

end Tree

end Conduit.Settings
