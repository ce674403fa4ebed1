/-
Lenient reading of records from trees of settings: truth values, numbers and texts stand in for one
another where that makes sense. A table is read by the names of its keys, a list by position. A
failure tells the key at which it came up.
-/
import Conduit.Binary64.Decimal
import Conduit.Numeral
import Conduit.Schema
import Conduit.Settings.Fault
import Conduit.Settings.Tree
import Conduit.Text.Lowercase

namespace Conduit.Settings

/-- What a tree is, for those who expected something else. -/
def Tree.describe : Tree → String
  | .scalar .null _ => "unit value"
  | .scalar (.bool b) _ => "boolean `" ++ Text.truth b ++ "`"
  | .scalar (.int i) _ => s!"integer `{i}`"
  | .scalar (.float x) _ => "floating point `" ++ x.pointedText ++ "`"
  | .scalar (.text s) _ => "string " ++ Text.quoted s
  | .list _ _ => "sequence"
  | .table _ _ => "map"

/-- The failure of a tree that is not what was expected. -/
def Tree.mistaken (t : Tree) (expected : String) : LoadFault :=
  .type t.describe expected none t.origin

/-- The words that stand for yes. -/
def yesWords : List String := ["true", "on", "yes"]

/-- The words that stand for no. -/
def noWords : List String := ["false", "off", "no"]

/-- A truth value: a number counts as true unless it is zero. A text that is no such word is shown
in lower case. -/
def Tree.asTruth (t : Tree) : Except LoadFault Bool :=
  match t with
  | .scalar (.bool b) _ => .ok b
  | .scalar (.int i) _ => .ok (i != 0)
  | .scalar (.float x) _ => .ok x.isNonzero
  | .scalar (.text s) origin =>
    let word := Text.lowercase s
    if word = "1" ∨ word ∈ yesWords then .ok true
    else if word = "0" ∨ word ∈ noWords then .ok false
    else .error (.type ("string " ++ Text.quoted word) "a boolean" none origin)
  | _ => .error (t.mistaken "a boolean")

/-- A count: a number with a fraction goes to the nearest integer, and what is too great or too small
to the nearer end. -/
def Tree.asCount (t : Tree) : Except LoadFault Nat :=
  match t with
  | .scalar (.bool b) _ => .ok (if b then 1 else 0)
  | .scalar (.int i) origin =>
    if 0 ≤ i then .ok i.toNat
    else .error (.type s!"64-bit integer `{i}`" "an unsigned 64 bit or less integer" none origin)
  | .scalar (.float x) _ => .ok (x.saturate Numeral.greatestUnsigned)
  | .scalar (.text s) _ =>
    let word := Text.lowercase s
    if word ∈ yesWords then .ok 1
    else if word ∈ noWords then .ok 0
    else
      match Numeral.natural? s.toList with
      | some n => if n ≤ Numeral.greatestUnsigned then .ok n else .error (t.mistaken "an integer")
      | none => .error (t.mistaken "an integer")
  | _ => .error (t.mistaken "an integer")

/-- A text: truth values and numbers are written out. -/
def Tree.asText (t : Tree) : Except LoadFault String :=
  match t with
  | .scalar (.text s) _ => .ok s
  | .scalar (.bool b) _ => .ok (Text.truth b)
  | .scalar (.int i) _ => .ok (toString i)
  | .scalar (.float x) _ => .ok x.text
  | _ => .error (t.mistaken "a string")

/-- The name of a choice: a text, or the single key of a table. -/
def Tree.asChoice (t : Tree) (kind : String) : Except LoadFault String :=
  match t with
  | .scalar (.text s) _ => .ok s
  | .table [(name, _)] _ => .ok name
  | _ => .error <| .message <| "value of enum " ++ kind ++
      " should be represented by either string or table with exactly one key"

end Conduit.Settings

namespace Conduit.Field

open Settings (Tree LoadFault)

variable {σ : Type}

mutual

/-- Reads a field. -/
def readLenient (f : Field σ) (t : Tree) (s : σ) : Except LoadFault σ :=
  match t with
  | .scalar value origin => readWhole f (.scalar value origin) s
  | .list items origin =>
    match f with
    | .record _ fields => readPlaces fields 0 items s
    | _ => readWhole f (.list items origin) s
  | .table entries origin =>
    match f with
    | .record _ fields => readKeys fields entries s
    | _ => readWhole f (.table entries origin) s
where
  /-- Reads a field from a tree that is not taken apart. -/
  readWhole (f : Field σ) (t : Tree) (s : σ) : Except LoadFault σ :=
    match f with
    | .text put => t.asText.map (put · s)
    | .truth put => t.asTruth.map (put · s)
    | .count put => t.asCount.map (put · s)
    | .path put =>
      match t with
      | .scalar .null _ => .ok (put none s)
      | _ => t.asText.map fun v => put (some v) s
    | .choice kind options => do
      let name ← t.asChoice kind
      match option? options name with
      | some set => return set s
      | none => throw (.message s!"enum {kind} does not have variant constructor {name}")
    | .record kind _ =>
      .error (.message ("invalid type: " ++ t.describe ++ ", expected struct " ++ kind))

/-- Reads the entries of a table into the fields of their names. -/
def readKeys (fields : List (String × Field σ)) : List (String × Tree) → σ → Except LoadFault σ
  | [], s => .ok s
  | (name, t) :: rest, s =>
    match find? fields name with
    | none => readKeys fields rest s
    | some f =>
      match readLenient f t s with
      | .ok s => readKeys fields rest s
      | .error e => .error (e.under name)

/-- Reads the items of a list into the fields in their order; what is left over is passed over. -/
def readPlaces (fields : List (String × Field σ)) (i : Nat) : List Tree → σ → Except LoadFault σ
  | [], s => .ok s
  | t :: rest, s =>
    match fields with
    | [] => .ok s
    | (_, f) :: fields =>
      match readLenient f t s with
      | .ok s => readPlaces fields (i + 1) rest s
      | .error e => .error (e.underIndex i)

end

end Conduit.Field
