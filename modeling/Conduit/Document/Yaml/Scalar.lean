/-
Scalars of YAML text. A scalar in quotes is a text; a plain one may stand for nothing, a truth
value or a number. A line break within a scalar counts as a space, and further ones right after it
stay line breaks.
-/
import Conduit.Binary64.Decimal
import Conduit.Document.Json
import Conduit.Numeral
import Conduit.Reader

namespace Conduit.Document.Yaml

open Reader (one char run manyUntil peek? any maybe)

/-- An integer of 64 bits with a base of its own. -/
def based? (base : Nat) (cs : List Char) : Option Int :=
  let (negative, ds) := Binary64.signed cs
  if ds.isEmpty then none
  else
    (ds.foldlM (fun n c => (Json.hexValue? c).bind fun d =>
      if d < base then some (base * n + d) else none) 0).bind fun n =>
        let i : Int := if negative then -(n : Int) else n
        if Numeral.fitsSigned i then some i else none

/-- An integer of 64 bits. -/
def integer? (cs : List Char) : Option Int :=
  match cs with
  | '0' :: 'x' :: ds => based? 16 ds
  | '0' :: 'o' :: ds => based? 8 ds
  | _ =>
    (Numeral.integer? cs).bind fun i => if Numeral.fitsSigned i then some i else none

/-- What a plain scalar stands for. The names of numbers that are not finite have no value here, and
then there is no document. -/
def plain? (s : String) : Option Document :=
  if s = "" ∨ s = "~" ∨ s = "null" then some .null
  else if s = "true" then some (.bool true)
  else if s = "false" then some (.bool false)
  else match integer? s.toList with
    | some i => some (.int i)
    | none =>
      let name := if s.startsWith "+" ∨ s.startsWith "-" then (s.drop 1).toString else s
      if [".inf", ".Inf", ".INF"].contains name ∨ [".nan", ".NaN", ".NAN"].contains s then none
      else if s.toList.any Char.isDigit then
        some (match Binary64.ofText? s with
          | some x => .float x
          | none => .text s)
      else some (.text s)

/-- Line breaks within a scalar, with the blanks around them: one is a space, and of several the
first does not count. -/
def breaks : Reader (List Char) := do
  let blanks ← run fun c => c = ' ' || c = '\t' || c = '\n'
  let count := blanks.count '\n'
  if count = 0 then return blanks
  else if count = 1 then return [' ']
  else return List.replicate (count - 1) '\n'

/-- A character given by so many digits. -/
def codePoint (count : Nat) : Reader Char := do
  let ds ← (List.range count).mapM fun _ => any
  match ds.foldlM (fun n c => (Json.hexValue? c).map (16 * n + ·)) 0 with
  | some n => if n < 0xD800 ∨ (0xE000 ≤ n ∧ n < 0x110000) then return Char.ofNat n else failure
  | none => failure

/-- What a backslash and the characters after it stand for. -/
def escaped : Reader (List Char) := do
  match ← any with
  | '0' => return ['\x00']
  | 'a' => return ['\x07']
  | 'b' => return ['\x08']
  | 't' => return ['\t']
  | '\t' => return ['\t']
  | 'n' => return ['\n']
  | 'v' => return ['\x0b']
  | 'f' => return ['\x0c']
  | 'r' => return ['\r']
  | 'e' => return ['\x1b']
  | ' ' => return [' ']
  | '\x22' => return ['\x22']
  | '/' => return ['/']
  | '\\' => return ['\\']
  | 'N' => return [Char.ofNat 0x85]
  | '_' => return [Char.ofNat 0xa0]
  | 'L' => return [Char.ofNat 0x2028]
  | 'P' => return [Char.ofNat 0x2029]
  | 'x' => return [← codePoint 2]
  | 'u' => return [← codePoint 4]
  | 'U' => return [← codePoint 8]
  | '\n' => let _ ← run fun c => c = ' ' || c = '\t'; return []
  | _ => failure

/-- Whether a character begins blanks that may hold a line break. -/
def isBreakable (c : Char) : Bool := c = ' ' || c = '\t' || c = '\n'

/-- A text in double quotes. -/
def doubleQuoted : Reader String := do
  char '\x22'
  let pieces ← manyUntil (char '\x22') do
    match ← peek? with
    | some '\\' => let _ ← any; escaped
    | some c => if isBreakable c then breaks else return [← any]
    | none => failure
  return String.ofList pieces.flatten

/-- A text in single quotes, in which two of them stand for one. -/
def singleQuoted : Reader String := do
  char '\''
  let ending : Reader Unit := do
    char '\''
    if (← peek?) = some '\'' then failure
  let pieces ← manyUntil ending do
    match ← peek? with
    | some '\'' => char '\''; char '\''; return ['\'']
    | some c => if isBreakable c then breaks else return [← any]
    | none => failure
  return String.ofList pieces.flatten

/-- A text in quotes. -/
def quoted : Reader String := doubleQuoted <|> singleQuoted

end Conduit.Document.Yaml
