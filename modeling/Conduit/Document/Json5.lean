/-
JSON5 text: JSON with comments, commas after last items, keys without quotes, strings in single
quotes, and more ways to write numbers.
-/
import Conduit.Binary64.Decimal
import Conduit.Document.Json
import Conduit.Reader
import Conduit.Text.Blank

namespace Conduit.Document.Json5

open Reader (one char word run run1 maybe many manyUntil peek? any)

/-- Whether a character ends a line. -/
def isLineEnd (c : Char) : Bool := c = '\n' || c = '\r' || c.toNat = 0x2028 || c.toNat = 0x2029

/-- A comment of either kind. -/
def comment : Reader Unit :=
  (do word "//"; let _ ← run fun c => !isLineEnd c) <|>
  (do word "/*"; let _ ← manyUntil (word "*/") any)

/-- Skips blanks and comments. -/
def gap : Reader Unit := do
  let _ ← many ((do let _ ← run1 fun c => Text.isBlank c || c.toNat = 0xFEFF) <|> comment)

/-- So many digits in base 16. -/
def hexDigits (count : Nat) : Reader Nat := do
  let ds ← (List.range count).mapM fun _ => any
  match ds.foldlM (fun n c => (Json.hexValue? c).map (16 * n + ·)) 0 with
  | some n => return n
  | none => failure

/-- The character of a unit, or of a leading unit and the trailing one that has to follow. -/
def unitChar : Reader Char := do
  let u ← hexDigits 4
  if 0xD800 ≤ u ∧ u ≤ 0xDBFF then
    word "\\u"
    let v ← hexDigits 4
    if 0xDC00 ≤ v ∧ v ≤ 0xDFFF then
      return Char.ofNat (0x10000 + (u - 0xD800) * 1024 + (v - 0xDC00))
    else failure
  else if 0xDC00 ≤ u ∧ u ≤ 0xDFFF then failure
  else return Char.ofNat u

/-- What a backslash and the characters after it stand for. -/
def escaped : Reader (List Char) := do
  match ← any with
  | 'b' => return ['\x08']
  | 'f' => return ['\x0c']
  | 'n' => return ['\n']
  | 'r' => return ['\r']
  | 't' => return ['\t']
  | 'v' => return ['\x0b']
  | '0' => return ['\x00']
  | 'x' => return [Char.ofNat (← hexDigits 2)]
  | 'u' => return [← unitChar]
  | '\r' => let _ ← maybe (char '\n'); return []
  | c => if isLineEnd c then return [] else if c.isDigit then failure else return [c]

/-- A string in quotes of either kind. -/
def string : Reader String := do
  let quote ← one fun c => c = '\x22' || c = '\''
  let pieces ← manyUntil (char quote) do
    let c ← any
    if c = '\\' then escaped
    else if c = '\n' ∨ c = '\r' then failure
    else return [c]
  return String.ofList pieces.flatten

/-- Whether a character may begin a key without quotes. -/
def isKeyStart (c : Char) : Bool := c.isAlpha || c = '_' || c = '$' || c.toNat ≥ 0xAA

/-- A key. -/
def key : Reader String :=
  string <|> do
    let c ← one isKeyStart
    let rest ← run fun c => isKeyStart c || c.isDigit
    return String.ofList (c :: rest)

/-- A number. An integer has to fit 64 bits. -/
def number : Reader Document := do
  let negative ← match ← peek? with
    | some '-' => let _ ← any; pure true
    | some '+' => let _ ← any; pure false
    | _ => pure false
  let integer (n : Nat) : Reader Document :=
    let i : Int := if negative then -n else n
    if Numeral.fitsSigned i then return .int i else failure
  if (← maybe (word "Infinity")).isSome then return .float (.infinite negative)
  if (← maybe (word "NaN")).isSome then return .float .nan
  if (← maybe (word "0x" <|> word "0X")).isSome then
    let ds ← run1 fun c => (Json.hexValue? c).isSome
    integer (ds.foldl (fun n c => 16 * n + (Json.hexValue? c).getD 0) 0)
  else
    let ds ← run Char.isDigit
    if ds.length > 1 ∧ ds.head? = some '0' then failure
    let fraction ← maybe (do char '.'; run Char.isDigit)
    if ds.isEmpty ∧ (fraction.getD []).isEmpty then failure
    let power ← Json.exponentPart
    let n := Binary64.digitsValue 0 ds
    match fraction, power with
    | none, none => integer n
    | _, _ =>
      let places := fraction.getD []
      return .float (Binary64.ofDecimal negative (Binary64.digitsValue n places)
        (power.getD 0 - places.length))

/-- The items of a container, up to its closing bracket; a comma may follow the last one. -/
def items (close : Char) (item : Reader α) : Reader (List α) := do
  gap
  manyUntil (char close) do
    let a ← item
    gap
    match ← peek? with
    | some ',' => let _ ← any; gap; return a
    | some c => if c = close then return a else failure
    | none => failure

/-- A value with at most `depth` levels, its own included. -/
def value : Nat → Reader Document
  | 0 => failure
  | depth + 1 => do
    match ← peek? with
    | some 'n' => word "null"; return .null
    | some 't' => word "true"; return .bool true
    | some 'f' => word "false"; return .bool false
    | some '\x22' => return .text (← string)
    | some '\'' => return .text (← string)
    | some '[' => char '['; return .list (← items ']' (value depth))
    | some '\x7b' =>
      char '\x7b'
      let entries ← items '\x7d' do
        let k ← key
        gap
        char ':'
        gap
        return (k, ← value depth)
      return tableOf entries
    | _ => number

/-- The document of a JSON5 text. -/
def parse? (s : String) : Option Document :=
  Reader.readAll? (do gap; let d ← value 128; gap; return d) s.toList

end Conduit.Document.Json5
