/-
Reading TOML text.
-/
import Conduit.Binary64.Decimal
import Conduit.Document.Toml
import Conduit.Document.Json
import Conduit.Reader

namespace Conduit.Document.Toml

open Reader (one char word run run1 maybe many manyUntil peek? any finish)

/-! ## Blanks -/

/-- Whether a character is a control that may stand nowhere. -/
def isControl (c : Char) : Bool := (c.toNat < 32 && c != '\t') || c.toNat = 127

/-- Skips spaces and tabs. -/
def spaces : Reader Unit := do let _ ← run fun c => c = ' ' || c = '\t'

/-- The end of a line. -/
def newline : Reader Unit := char '\n' <|> word "\r\n"

/-- Skips a comment. -/
def comment : Reader Unit := do
  char '#'
  let _ ← run fun c => !isControl c

/-- Skips blanks, line ends and comments. -/
def gap : Reader Unit := do
  spaces
  let _ ← many (do (newline <|> comment); spaces)

/-- The rest of a line, without anything but blanks and a comment. -/
def lineEnd : Reader Unit := do
  spaces
  let _ ← maybe comment
  newline <|> finish

/-! ## Strings -/

/-- The number of digits in base 16. -/
def hexNumber (ds : List Char) : Option Nat :=
  ds.foldlM (fun n c => (Json.hexValue? c).map (16 * n + ·)) 0

/-- A character given by so many digits. -/
def codePoint : Nat → Reader Char
  | count => do
    let ds ← (List.range count).mapM fun _ => any
    match hexNumber ds with
    | some n => if n < 0xD800 ∨ (0xE000 ≤ n ∧ n < 0x110000) then return Char.ofNat n else failure
    | none => failure

/-- A character after a backslash. -/
def escaped : Reader Char := do
  match ← any with
  | 'b' => return '\x08'
  | 't' => return '\t'
  | 'n' => return '\n'
  | 'f' => return '\x0c'
  | 'r' => return '\r'
  | 'e' => return '\x1b'
  | '\x22' => return '\x22'
  | '\\' => return '\\'
  | 'u' => codePoint 4
  | 'U' => codePoint 8
  | 'x' => codePoint 2
  | _ => failure

/-- The characters of a string on one line with escapes, after the opening quote. -/
def basicRest : Reader String := do
  let cs ← manyUntil (char '\x22') do
    let c ← any
    if c = '\\' then escaped
    else if isControl c then failure
    else return c
  return String.ofList cs

/-- The characters of a string on one line as they stand, after the opening quote. -/
def literalRest : Reader String := do
  let cs ← manyUntil (char '\'') (one fun c => !isControl c)
  return String.ofList cs

/-- The end of a string of several lines: three quotes, before which up to two more belong to the
text. -/
def threeQuotes (quote : Char) : Reader Unit := do
  char quote; char quote; char quote

/-- Quotes of the text just before the end of a string of several lines. -/
def trailingQuotes (quote : Char) : Reader (List Char) := do
  let more ← run (· = quote)
  if more.length ≤ 2 then return more else failure

/-- The blanks and line ends that a backslash at the end of a line takes away. -/
def lineJoin : Reader Unit := do
  char '\\'
  spaces
  newline
  let _ ← run fun c => c = ' ' || c = '\t' || c = '\n' || c = '\r'

/-- One piece of a string of several lines. -/
def longPiece (literal : Bool) : Reader (List Char) := do
  match ← peek? with
  | some '\\' =>
    if literal then return [← any]
    else (do lineJoin; return []) <|> (do char '\\'; return [← escaped])
  | some '\n' => newline; return ['\n']
  | some '\r' => newline; return ['\n']
  | _ => return [← one fun c => !isControl c]

/-- A string of several lines, after the opening quotes. A line end right there does not count. -/
def longRest (quote : Char) (literal : Bool) : Reader String := do
  let _ ← maybe newline
  let pieces ← manyUntil (threeQuotes quote) (longPiece literal)
  let more ← trailingQuotes quote
  return String.ofList (pieces.flatten ++ more)

/-- A string. -/
def string : Reader String :=
  (do threeQuotes '\x22'; longRest '\x22' false) <|>
  (do threeQuotes '\''; longRest '\'' true) <|>
  (do char '\x22'; basicRest) <|>
  (do char '\''; literalRest)

/-! ## Keys -/

/-- Whether a character may stand in a key without quotes. -/
def isBare (c : Char) : Bool := c.isAlphanum || c = '_' || c = '-'

/-- One key. -/
def simpleKey : Reader String :=
  (do return String.ofList (← run1 isBare)) <|>
  (do char '\x22'; basicRest) <|>
  (do char '\''; literalRest)

/-- Keys with dots between them. -/
def keys : Reader (List String) := do
  let first ← simpleKey
  let rest ← many (do spaces; char '.'; spaces; simpleKey)
  return first :: rest

/-! ## Numbers, dates and words -/

/-- Digits of a class, with single underscores between them. -/
def digits (p : Char → Bool) : Reader (List Char) := do
  let first ← run1 p
  let rest ← many (do char '_'; run1 p)
  return first ++ rest.flatten

/-- An integer with a base of its own. -/
def based (letter : Char) (base : Nat) : Reader Document := do
  char '0'
  char letter
  let ds ← digits fun c => (Json.hexValue? c).any (· < base)
  let n := ds.foldl (fun n c => base * n + (Json.hexValue? c).getD 0) 0
  if Numeral.fitsSigned n then return .int n else failure

/-- A sign, when there is one. -/
def sign : Reader Bool := do
  match ← peek? with
  | some '-' => let _ ← any; return true
  | some '+' => let _ ← any; return false
  | _ => return false

/-- Digits that do not begin with a zero, unless that is all. -/
def whole : Reader (List Char) := do
  let ds ← digits Char.isDigit
  if ds.length > 1 ∧ ds.head? = some '0' then failure else return ds

/-- A decimal number: an integer, or a float if it has a fraction or an exponent. -/
def decimal : Reader Document := do
  let negative ← sign
  if (← maybe (word "inf")).isSome then return .float (.infinite negative)
  if (← maybe (word "nan")).isSome then return .float .nan
  let ds ← whole
  let fraction ← maybe (do char '.'; digits Char.isDigit)
  let power ← maybe do
    let _ ← one fun c => c = 'e' || c = 'E'
    let down ← sign
    let ds ← digits Char.isDigit
    let n : Int := Binary64.digitsValue 0 ds
    return if down then -n else n
  let n := Binary64.digitsValue 0 ds
  match fraction, power with
  | none, none =>
    let i : Int := if negative then -n else n
    if Numeral.fitsSigned i then return .int i else failure
  | _, _ =>
    let places := fraction.getD []
    match Binary64.ofDecimal negative (Binary64.digitsValue n places)
        (power.getD 0 - places.length) with
    | .infinite _ => failure
    | x => return .float x

/-- So many digits, with a value in a range. -/
def field (count low high : Nat) : Reader (List Char) := do
  let ds ← (List.range count).mapM fun _ => one Char.isDigit
  let n := Binary64.digitsValue 0 ds
  if low ≤ n ∧ n ≤ high then return ds else failure

/-- The number of days of a month. -/
def daysOf (year month : Nat) : Nat :=
  if month = 2 then
    if year % 4 = 0 ∧ (year % 100 ≠ 0 ∨ year % 400 = 0) then 29 else 28
  else if [4, 6, 9, 11].contains month then 30 else 31

/-- A date. -/
def date : Reader (List Char) := do
  let y ← field 4 0 9999
  char '-'
  let m ← field 2 1 12
  char '-'
  let d ← field 2 1 (daysOf (Binary64.digitsValue 0 y) (Binary64.digitsValue 0 m))
  return y ++ ['-'] ++ m ++ ['-'] ++ d

/-- A time of day. Seconds may be missing, and zeros at the end of a fraction are not kept. -/
def time : Reader (List Char) := do
  let h ← field 2 0 23
  char ':'
  let m ← field 2 0 59
  let s ← maybe (do char ':'; field 2 0 60)
  let f ← match s with
    | none => pure none
    | some _ => maybe (do char '.'; run1 Char.isDigit)
  let shown := (((f.getD []).take 9).reverse.dropWhile (· = '0')).reverse
  return h ++ [':'] ++ m ++ [':'] ++ s.getD ['0', '0'] ++
    (if shown.isEmpty then [] else '.' :: shown)

/-- An offset from universal time. -/
def offset : Reader (List Char) := do
  match ← any with
  | 'Z' => return ['Z']
  | 'z' => return ['Z']
  | c =>
    if c = '+' ∨ c = '-' then
      let h ← field 2 0 23
      char ':'
      let m ← field 2 0 59
      return c :: h ++ [':'] ++ m
    else failure

/-- A date, a time, or both. -/
def moment : Reader Document :=
  (do
    let d ← date
    let t ← maybe do
      let _ ← one fun c => c = 'T' || c = 't' || c = ' '
      let t ← time
      let o ← maybe offset
      return 'T' :: t ++ o.getD []
    return .text (String.ofList (d ++ t.getD []))) <|>
  (do return .text (String.ofList (← time)))

/-! ## Values -/

/-- The items of a container with commas between them; a comma may follow the last one. -/
def itemsUpTo (close : Char) (item : Reader α) : Reader (List α) := do
  gap
  let items ← manyUntil (char close) do
    let a ← item
    gap
    match ← peek? with
    | some ',' => let _ ← any; gap; return a
    | some c => if c = close then return a else failure
    | none => failure
  return items

/-- A value with at most `depth` levels, its own included. -/
def value : Nat → Reader Document
  | 0 => failure
  | depth + 1 => do
    match ← peek? with
    | some '\x22' => return .text (← string)
    | some '\'' => return .text (← string)
    | some 't' => word "true"; return .bool true
    | some 'f' => word "false"; return .bool false
    | some '[' =>
      char '['
      return .list (← itemsUpTo ']' (value depth))
    | some '\x7b' =>
      char '\x7b'
      let entries ← itemsUpTo '\x7d' do
        let path ← keys
        spaces
        char '='
        spaces
        return (path, ← value depth)
      match inlineTable? entries with
      | some d => return d
      | none => failure
    | _ => moment <|> based 'x' 16 <|> based 'o' 8 <|> based 'b' 2 <|> decimal

/-! ## Statements -/

/-- One statement, up to the end of its line. -/
def statement : Reader Statement := do
  let s ← (do
      char '['; char '['
      spaces
      let path ← keys
      spaces
      char ']'; char ']'
      return Statement.item path) <|>
    (do
      char '['
      spaces
      let path ← keys
      spaces
      char ']'
      return Statement.table path) <|>
    (do
      let path ← keys
      spaces
      char '='
      spaces
      return Statement.entry path (← value 80))
  lineEnd
  return s

/-- The document of a TOML text. -/
def parse? (s : String) : Option Document := do
  let statements ← Reader.readAll? (do gap; many (do let s ← statement; gap; return s)) s.toList
  ofStatements? statements

end Conduit.Document.Toml
