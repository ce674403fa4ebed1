/-
Documents: the tree of values that a settings file, a script or an answer is written as. A table
keeps its keys in order and holds each key once; an entry put under a key that is present replaces
what stood there.
-/
import Conduit.Binary64

namespace Conduit

/-- A value of a document. -/
inductive Document
  | null
  | bool (b : Bool)
  | int (i : Int)
  | float (x : Binary64)
  | text (s : String)
  | list (items : List Document)
  | table (entries : List (String × Document))
  deriving BEq, Repr, Inhabited

namespace Document

/-- Puts a value under a key, and keeps the keys in order. -/
def put (key : String) (value : α) : List (String × α) → List (String × α)
  | [] => [(key, value)]
  | (k, v) :: rest =>
    if key < k then (key, value) :: (k, v) :: rest
    else if key = k then (key, value) :: rest
    else (k, v) :: put key value rest

/-- The entries of a list of pairs, in the order of the keys; of two with one key the later
counts. -/
def sorted (entries : List (String × α)) : List (String × α) :=
  entries.foldl (fun t (k, v) => put k v t) []

/-- A table of the given entries. -/
def tableOf (entries : List (String × Document)) : Document := .table (sorted entries)

/-- A count. -/
def nat (n : Nat) : Document := .int n

/-- A text that may be missing. -/
def textOrNull : Option String → Document
  | some s => .text s
  | none => .null

/-- An error that has nothing to say but its name. -/
def errorOf (name : String) : Document := tableOf [("error", .text name)]

/-- The value under a key of a table. -/
def get? (d : Document) (key : String) : Option Document :=
  match d with
  | .table entries => (entries.find? (·.1 = key)).map (·.2)
  | _ => none

/-- The value as a text. -/
def text? : Document → Option String
  | .text s => some s
  | _ => none

/-- The value as an integer. -/
def int? : Document → Option Int
  | .int i => some i
  | _ => none

/-- The value as an integer that is not negative. -/
def nat? : Document → Option Nat
  | .int (.ofNat n) => some n
  | _ => none

/-- The value as a truth value. -/
def bool? : Document → Option Bool
  | .bool b => some b
  | _ => none

/-- The value as a list. -/
def list? : Document → Option (List Document)
  | .list items => some items
  | _ => none

/-- The value under a key, as a text. -/
def textAt? (d : Document) (key : String) : Option String := (d.get? key).bind text?

/-- The value under a key, as an integer. -/
def intAt? (d : Document) (key : String) : Option Int := (d.get? key).bind int?

/-- The value under a key, as an integer that is not negative. -/
def natAt? (d : Document) (key : String) : Option Nat := (d.get? key).bind nat?

theorem sizeOf_of_get? {d v : Document} {key : String} (h : d.get? key = some v) :
    sizeOf v < sizeOf d := by
  unfold get? at h
  split at h
  · rename_i entries
    obtain ⟨e, he, rfl⟩ := Option.map_eq_some_iff.1 h
    have hm := List.sizeOf_lt_of_mem (List.mem_of_find?_eq_some he)
    obtain ⟨k, v⟩ := e
    simp only [Prod.mk.sizeOf_spec, table.sizeOf_spec] at *
    omega
  · cases h

/-- The items of the list under a key, each smaller than the document; none when no list is
there. -/
def itemsAt (d : Document) (key : String) : List { x : Document // sizeOf x < sizeOf d } :=
  match h : d.get? key with
  | some (.list items) => items.attach.map fun ⟨x, hx⟩ => ⟨x, by
      have h1 := sizeOf_of_get? h
      have h2 := List.sizeOf_lt_of_mem hx
      simp only [list.sizeOf_spec] at h1
      omega⟩
  | _ => []

end Document

end Conduit
