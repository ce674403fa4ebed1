/-
Documents as JSON text. Reading accepts one value with blanks around it, at most 127 containers
deep, and refuses numbers beyond the binary64 range; an integer that fits neither 64-bit form is
read as a binary64 number. Writing is compact, with the keys of a table in order.
-/
import Conduit.Binary64.Decimal
import Conduit.Document
import Conduit.Reader

namespace Conduit.Document.Json

/-! ## Writing -/

/-- The digit of a number below 16, in lower case. -/
def hexDigit (n : Nat) : Char := (Nat.digitChar n)

/-- The written form of one character inside a string. -/
def escaped (c : Char) : List Char :=
  if c = '\x22' then ['\\', '\x22']
  else if c = '\\' then ['\\', '\\']
  else if c = '\n' then ['\\', 'n']
  else if c = '\r' then ['\\', 'r']
  else if c = '\t' then ['\\', 't']
  else if c = '\x08' then ['\\', 'b']
  else if c = '\x0c' then ['\\', 'f']
  else if c.toNat < 32 then ['\\', 'u', '0', '0', hexDigit (c.toNat / 16), hexDigit (c.toNat % 16)]
  else [c]

/-- A string in quotes. -/
def quoted (s : String) : String :=
  String.ofList ('\x22' :: (s.toList.flatMap escaped ++ ['\x22']))

/-- The text of a number that is finite; what is not has no JSON form and is written `null`. -/
def floatText (x : Binary64) : String :=
  match x with
  | .finite .. => x.compactText
  | _ => "null"

mutual

/-- The compact text of a document. -/
def render : Document → String
  | .null => "null"
  | .bool b => if b then "true" else "false"
  | .int i => toString i
  | .float x => floatText x
  | .text s => quoted s
  | .list items => "[" ++ ",".intercalate (renderItems items) ++ "]"
  | .table entries => "\x7b" ++ ",".intercalate (renderEntries entries) ++ "\x7d"

/-- The texts of the items of a list. -/
def renderItems : List Document → List String
  | [] => []
  | d :: rest => render d :: renderItems rest

/-- The texts of the entries of a table. -/
def renderEntries : List (String × Document) → List String
  | [] => []
  | (k, d) :: rest => (quoted k ++ ":" ++ render d) :: renderEntries rest

end

/-! ## Reading -/

/-- The blanks between tokens. -/
def isBlank (c : Char) : Bool := c = ' ' || c = '\n' || c = '\t' || c = '\r'

/-- The value of a digit in base 16. -/
def hexValue? (c : Char) : Option Nat :=
  if c.isDigit then some (c.toNat - '0'.toNat)
  else if 'a' ≤ c ∧ c ≤ 'f' then some (c.toNat - 'a'.toNat + 10)
  else if 'A' ≤ c ∧ c ≤ 'F' then some (c.toNat - 'A'.toNat + 10)
  else none

/-- The number that four digits in base 16 stand for. -/
def unit? (a b c d : Char) : Option Nat := do
  return 4096 * (← hexValue? a) + 256 * (← hexValue? b) + 16 * (← hexValue? c) + (← hexValue? d)

/-- The character of an escape of one letter. -/
def escape? (c : Char) : Option Char :=
  if c = '\x22' then some '\x22'
  else if c = '\\' then some '\\'
  else if c = '/' then some '/'
  else if c = 'b' then some '\x08'
  else if c = 'f' then some '\x0c'
  else if c = 'n' then some '\n'
  else if c = 'r' then some '\r'
  else if c = 't' then some '\t'
  else none

/-- The characters of a string up to its closing quote. `high` is a leading half of a pair of
units that waits for its trailing half, and nothing else may come in between. -/
def stringBody (high : Option Nat) (acc : List Char) : List Char → Option (List Char × List Char)
  | '\\' :: 'u' :: a :: b :: c :: d :: rest => do
    let u ← unit? a b c d
    match high with
    | some h =>
      if 0xDC00 ≤ u ∧ u ≤ 0xDFFF then
        stringBody none (Char.ofNat (0x10000 + (h - 0xD800) * 1024 + (u - 0xDC00)) :: acc) rest
      else none
    | none =>
      if 0xD800 ≤ u ∧ u ≤ 0xDBFF then stringBody (some u) acc rest
      else if 0xDC00 ≤ u ∧ u ≤ 0xDFFF then none
      else stringBody none (Char.ofNat u :: acc) rest
  | '\\' :: c :: rest => do
    if high.isSome then none
    else stringBody none ((← escape? c) :: acc) rest
  | c :: rest =>
    if high.isSome then none
    else if c = '\x22' then some (acc.reverse, rest)
    else if c.toNat < 32 ∨ c = '\\' then none
    else stringBody none (c :: acc) rest
  | [] => none

/-- Reads a string whose opening quote is taken. -/
def stringRest : Reader String := do
  match stringBody none [] (← get) with
  | some (cs, rest) => set rest; return String.ofList cs
  | none => failure

/-- The value of an integer token, which stays an integer while it fits 64 bits. -/
def integer (negative : Bool) (digits : List Char) : Document :=
  let n := Binary64.digitsValue 0 digits
  if negative then
    if n = 0 then .float (Binary64.zero true)
    else if Numeral.fitsSigned (-n) then .int (-n)
    else .float (Binary64.ofDecimal true n 0)
  else if n ≤ Numeral.greatestUnsigned then .int n
  else .float (Binary64.ofDecimal false n 0)

/-- An exponent part, when there is one. -/
def exponentPart : Reader (Option Int) := do
  match ← Reader.peek? with
  | some c =>
    if c = 'e' ∨ c = 'E' then
      let _ ← Reader.any
      let (negative, rest) := Binary64.signed (← get)
      set rest
      let ds ← Reader.run1 Char.isDigit
      let k : Int := Binary64.digitsValue 0 ds
      return some (if negative then -k else k)
    else return none
  | none => return none

/-- Reads a number. A leading zero stands alone. -/
def number : Reader Document := do
  let negative := (← Reader.maybe (Reader.char '-')).isSome
  let whole ← Reader.run1 Char.isDigit
  if whole.length > 1 ∧ whole.head? = some '0' then failure
  let fraction ← Reader.maybe (do Reader.char '.'; Reader.run1 Char.isDigit)
  let power ← exponentPart
  match fraction, power with
  | none, none =>
    match integer negative whole with
    | .float (.infinite _) => failure
    | d => return d
  | _, _ =>
    let ds := fraction.getD []
    let digits := Binary64.digitsValue (Binary64.digitsValue 0 whole) ds
    match Binary64.ofDecimal negative digits (power.getD 0 - ds.length) with
    | .infinite _ => failure
    | x => return .float x

/-- Skips blanks. -/
def blanks : Reader Unit := do let _ ← Reader.run isBlank

/-- The items of a container, up to its closing bracket, which is taken. -/
def items (close : Char) (item : Reader α) : Reader (List α) := do
  blanks
  if (← Reader.maybe (Reader.char close)).isSome then return []
  let first ← item
  let rest ← Reader.manyUntil (do blanks; Reader.char close) (do blanks; Reader.char ','; item)
  return first :: rest

/-- Reads a value with at most `depth` levels, its own included. -/
def value : Nat → Reader Document
  | 0 => failure
  | depth + 1 => do
    blanks
    match ← Reader.peek? with
    | some 'n' => Reader.word "null"; return .null
    | some 't' => Reader.word "true"; return .bool true
    | some 'f' => Reader.word "false"; return .bool false
    | some '\x22' => Reader.char '\x22'; return .text (← stringRest)
    | some '[' =>
      Reader.char '['
      if depth = 0 then failure
      return .list (← items ']' (value depth))
    | some '\x7b' =>
      Reader.char '\x7b'
      if depth = 0 then failure
      let entry : Reader (String × Document) := do
        blanks
        Reader.char '\x22'
        let k ← stringRest
        blanks
        Reader.char ':'
        return (k, ← value depth)
      return tableOf (← items '\x7d' entry)
    | _ => number

/-- The document of a JSON text. -/
def parse? (s : String) : Option Document :=
  Reader.readAll? (do let d ← value 128; blanks; return d) s.toList

end Conduit.Document.Json
