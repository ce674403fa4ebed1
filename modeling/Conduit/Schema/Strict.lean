/-
Strict reading of records from documents: every value has to be of the kind of its field. Fields
that are missing keep what the record holds, and unknown ones are passed over. A table is read in
the order of its keys, a list by position, and the first fault ends the reading.
-/
import Conduit.Document
import Conduit.Binary64.Decimal
import Conduit.Schema
import Conduit.Text.Record

namespace Conduit

/-- Why a document does not fit a schema. -/
inductive Mismatch
  /-- A value of another kind. -/
  | kind (found : Document) (expected : String)
  /-- A value of the kind that is not allowed. -/
  | value (found : Document) (expected : String)
  | unknownVariant (name : String) (options : List String)
  /-- A list with more items than there are fields. -/
  | length (n : Nat)

namespace Mismatch

/-- What a document is, for those who expected something else. -/
def describe : Document → String
  | .null => "null"
  | .bool b => "boolean `" ++ Text.truth b ++ "`"
  | .int i => s!"integer `{i}`"
  | .float x => "floating point `" ++ x.compactText ++ "`"
  | .text s => "string " ++ Text.quoted s
  | .list _ => "sequence"
  | .table _ => "map"

/-- Alternatives in a sentence. -/
def oneOf (options : List String) : String :=
  match options.map fun o => s!"`{o}`" with
  | [] => "there are no variants"
  | [a] => s!"expected {a}"
  | [a, b] => s!"expected {a} or {b}"
  | several => "expected one of " ++ ", ".intercalate several

/-- The mismatch in words. -/
def text : Mismatch → String
  | .kind found expected => "invalid type: " ++ describe found ++ ", expected " ++ expected
  | .value found expected => "invalid value: " ++ describe found ++ ", expected " ++ expected
  | .unknownVariant name options => s!"unknown variant `{name}`, " ++ oneOf options
  | .length n => s!"invalid length {n}, expected fewer elements in array"

end Mismatch

namespace Field

variable {σ : Type}

/-- Chooses an option by its name. -/
def choose (options : List (String × (σ → σ))) (name : String) (s : σ) : Except Mismatch σ :=
  match option? options name with
  | some set => .ok (set s)
  | none => .error (.unknownVariant name (options.map (·.1)))

/-- Chooses an option from a document: by its name, or by the single key of a table, which may say
nothing more. -/
def readChoice (options : List (String × (σ → σ))) (d : Document) (s : σ) : Except Mismatch σ :=
  match d with
  | .text name => choose options name s
  | .table [(name, body)] => do
    let s ← choose options name s
    match body with
    | .null => return s
    | _ => throw (.kind body "unit")
  | .table _ => .error (.value d "map with a single key")
  | _ => .error (.kind d "string or map")

mutual

/-- Reads a field. -/
def readStrict (f : Field σ) (d : Document) (s : σ) : Except Mismatch σ :=
  match d with
  | .null =>
    match f with
    | .path put => .ok (put none s)
    | _ => mistake f .null
  | .bool b =>
    match f with
    | .truth put => .ok (put b s)
    | _ => mistake f (.bool b)
  | .int i =>
    match f, i with
    | .count put, .ofNat n => .ok (put n s)
    | .count _, _ => .error (.value (.int i) "u64")
    | _, _ => mistake f (.int i)
  | .float x => mistake f (.float x)
  | .text t =>
    match f with
    | .text put => .ok (put t s)
    | .path put => .ok (put (some t) s)
    | .choice _ options => readChoice options (.text t) s
    | _ => mistake f (.text t)
  | .list items =>
    match f with
    | .record _ fields => readItems items.length fields items s
    | _ => mistake f (.list items)
  | .table entries =>
    match f with
    | .record _ fields => readEntries fields entries s
    | .choice _ options => readChoice options (.table entries) s
    | _ => mistake f (.table entries)
where
  /-- The fault of a value that is not of the field's kind. -/
  mistake (f : Field σ) (d : Document) : Except Mismatch σ :=
    .error <| .kind d <|
      match f with
      | .text _ => "a string"
      | .truth _ => "a boolean"
      | .count _ => "u64"
      | .path _ => "path string"
      | .choice _ _ => "string or map"
      | .record kind _ => "struct " ++ kind

/-- Reads the entries of a table into the fields of their names. -/
def readEntries (fields : List (String × Field σ)) :
    List (String × Document) → σ → Except Mismatch σ
  | [], s => .ok s
  | (name, d) :: rest, s =>
    match find? fields name with
    | none => readEntries fields rest s
    | some f =>
      match readStrict f d s with
      | .ok s => readEntries fields rest s
      | .error e => .error e

/-- Reads the items of a list, of the length given, into the fields in their order. -/
def readItems (length : Nat) (fields : List (String × Field σ)) :
    List Document → σ → Except Mismatch σ
  | [], s => .ok s
  | d :: rest, s =>
    match fields with
    | [] => .error (.length length)
    | (_, f) :: fields =>
      match readStrict f d s with
      | .ok s => readItems length fields rest s
      | .error e => .error e

end

end Field

end Conduit
