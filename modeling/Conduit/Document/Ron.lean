/-
RON text: records with fields by name or by position, maps, lists, optional values, and the usual
scalars. A record is a table or a list, and its name does not count.
-/
import Conduit.Binary64.Decimal
import Conduit.Document.Json
import Conduit.Reader
import Conduit.Text.Blank

namespace Conduit.Document.Ron

open Reader (one char word run run1 maybe many manyUntil peek? any)

/-- A comment within slashes and stars, which may hold further ones, `depth` deep at most. -/
def blockComment : Nat → Reader Unit
  | 0 => failure
  | depth + 1 => do
    word "/*"
    let _ ← manyUntil (word "*/") (blockComment depth <|> do let _ ← any)

/-- Skips blanks and comments. -/
def gap : Reader Unit := do
  let _ ← many ((do let _ ← run1 Text.isBlank) <|>
    (do word "//"; let _ ← run fun c => c != '\n') <|> blockComment 64)

/-- The value of digits in base 16. -/
def hexNumber? (ds : List Char) : Option Nat :=
  if ds.isEmpty then none
  else ds.foldlM (fun n c => (Json.hexValue? c).map (16 * n + ·)) 0

/-- A character after a backslash. -/
def escaped : Reader Char := do
  match ← any with
  | 'n' => return '\n'
  | 'r' => return '\r'
  | 't' => return '\t'
  | '0' => return '\x00'
  | '\\' => return '\\'
  | '\'' => return '\''
  | '\x22' => return '\x22'
  | 'x' =>
    let a ← any
    let b ← any
    match hexNumber? [a, b] with
    | some n => return Char.ofNat n
    | none => failure
  | 'u' =>
    char '\x7b'
    let ds ← manyUntil (char '\x7d') any
    match hexNumber? ds with
    | some n => if n < 0xD800 ∨ (0xE000 ≤ n ∧ n < 0x110000) then return Char.ofNat n else failure
    | none => failure
  | _ => failure

/-- A string with escapes. -/
def plainString : Reader String := do
  char '\x22'
  let cs ← manyUntil (char '\x22') do
    let c ← any
    if c = '\\' then escaped else return c
  return String.ofList cs

/-- A string without escapes, between quotes with as many signs around them. -/
def rawString : Reader String := do
  char 'r'
  let signs ← run (· = '#')
  char '\x22'
  let cs ← manyUntil (do char '\x22'; word (String.ofList signs)) any
  return String.ofList cs

/-- A string. -/
def string : Reader String := rawString <|> plainString

/-- A single character in quotes. -/
def character : Reader String := do
  char '\''
  let c ← any
  let c ← if c = '\\' then escaped else pure c
  char '\''
  return String.ofList [c]

/-- A name. -/
def identifier : Reader String := do
  let c ← one fun c => c.isAlpha || c = '_'
  let rest ← run fun c => c.isAlphanum || c = '_'
  return String.ofList (c :: rest)

/-- Digits of a class with underscores among them. -/
def digits (p : Char → Bool) : Reader (List Char) := do
  let first ← one p
  let rest ← run fun c => p c || c = '_'
  return (first :: rest).filter (· != '_')

/-- A number. -/
def number : Reader Document := do
  let negative ← match ← peek? with
    | some '-' => let _ ← any; pure true
    | some '+' => let _ ← any; pure false
    | _ => pure false
  let integer (n : Nat) : Document := .int (if negative then -(n : Int) else n)
  let based (letter : Char) (base : Nat) : Reader Document := do
    char '0'
    char letter
    let ds ← digits fun c => (Json.hexValue? c).any (· < base)
    return integer (ds.foldl (fun n c => base * n + (Json.hexValue? c).getD 0) 0)
  let named : Reader Document :=
    (do word "inf"; return .float (.infinite negative)) <|> (do word "NaN"; return .float .nan)
  let decimal : Reader Document := do
    let ds ← (some <$> digits Char.isDigit) <|> pure none
    let fraction ← maybe (do char '.'; run fun c => c.isDigit || c = '_')
    let places := (fraction.getD []).filter (· != '_')
    if ds.isNone ∧ places.isEmpty then failure
    let power ← Json.exponentPart
    let n := Binary64.digitsValue 0 (ds.getD [])
    match fraction, power with
    | none, none => return integer n
    | _, _ =>
      return .float (Binary64.ofDecimal negative (Binary64.digitsValue n places)
        (power.getD 0 - places.length))
  named <|> based 'x' 16 <|> based 'o' 8 <|> based 'b' 2 <|> decimal

/-- The items of a container, up to its closing bracket; a comma may follow the last one. -/
def items (close : Char) (item : Reader α) : Reader (List α) := do
  gap
  manyUntil (char close) do
    let a ← item
    gap
    match ← peek? with
    | some ',' => let _ ← any; gap; return a
    | some c => if c = close then return a else failure
    | none => failure

/-- The key of a map as text. -/
def keyText? : Document → Option String
  | .text s => some s
  | _ => none

mutual

/-- What follows an opening parenthesis: nothing, fields by name, or fields by position. -/
def record : Nat → Reader Document
  | 0 => failure
  | depth + 1 =>
    (do gap; char ')'; return .null) <|>
    (do
      let fields ← items ')' do
        let name ← identifier
        gap
        char ':'
        gap
        return (name, ← value depth)
      return tableOf fields) <|>
    (do return .list (← items ')' (value depth)))

/-- A value with at most `depth` levels, its own included. -/
def value : Nat → Reader Document
  | 0 => failure
  | depth + 1 => do
    match ← peek? with
    | some '(' => char '('; record depth
    | some '[' => char '['; return .list (← items ']' (value depth))
    | some '\x7b' =>
      char '\x7b'
      let entries ← items '\x7d' do
        let k ← value depth
        gap
        char ':'
        gap
        let d ← value depth
        match keyText? k with
        | some k => return (k, d)
        | none => failure
      return tableOf entries
    | some '\'' => return .text (← character)
    | some '\x22' => return .text (← string)
    | _ => (do return .text (← rawString)) <|> number <|> do
      match ← identifier with
      | "true" => return .bool true
      | "false" => return .bool false
      | "None" => return .null
      | "Some" =>
        gap
        char '('
        gap
        let d ← value depth
        gap
        let _ ← maybe (char ',')
        gap
        char ')'
        return d
      | _ =>
        gap
        match ← peek? with
        | some '(' => char '('; record depth
        | _ => return .null

end

/-- The document of a RON text. -/
def parse? (s : String) : Option Document :=
  Reader.readAll? (do gap; let d ← value 128; gap; return d) s.toList

end Conduit.Document.Ron
