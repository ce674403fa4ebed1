/-
INI text: sections of keys with values, which are all texts. Comments stand on lines of their own.
Of keys of one name the last one counts, and so it is with sections.
-/
import Conduit.Document.Json
import Conduit.Reader
import Conduit.Text.Blank

namespace Conduit.Document.Ini

open Reader (one char run maybe many manyUntil peek? any atEnd)

/-- What a backslash and the characters after it stand for. -/
def escaped : Reader (List Char) := do
  match ← any with
  | '0' => return ['\x00']
  | 'a' => return ['\x07']
  | 'b' => return ['\x08']
  | 't' => return ['\t']
  | 'r' => return ['\r']
  | 'n' => return ['\n']
  | '\n' => return []
  | 'x' =>
    let ds ← (List.range 4).mapM fun _ => any
    match ds.foldlM (fun n c => (Json.hexValue? c).map (16 * n + ·)) 0 with
    | some n => if n < 0xD800 ∨ 0xE000 ≤ n then return [Char.ofNat n] else failure
    | none => failure
  | c => return ['\\', c]

/-- One character of a text, or what an escape stands for. -/
def piece : Reader (List Char) := do
  let c ← any
  if c = '\\' then escaped else return [c]

/-- The text up to a character of a class, which stays in place. -/
def textUntil (stop : Char → Bool) : Reader (List Char) := do
  let pieces ← many do
    match ← peek? with
    | some c => if stop c then failure else piece
    | none => failure
  return pieces.flatten

/-- The text up to a quote, which is taken. -/
def quotedRest (quote : Char) : Reader (List Char) := do
  return (← manyUntil (char quote) piece).flatten

/-- A value: quoted parts, and then the rest of the line without blanks at its ends. -/
def value : Reader String := do
  let _ ← run fun c => c = ' ' || c = '\t'
  let quoted ← many ((do char '\x22'; quotedRest '\x22') <|> (do char '\''; quotedRest '\''))
  let rest ← textUntil fun c => c = '\n' || c = '\r'
  let rest := if quoted.isEmpty then Text.trim rest else (rest.reverse.dropWhile Text.isBlank).reverse
  return String.ofList (quoted.flatten ++ rest)

/-- A line of a document. -/
inductive Line
  | section (name : String)
  | entry (key value : String)
  | comment
  deriving DecidableEq

/-- A line that begins where nothing stands before it on the line. -/
def line (fresh : Bool) : Reader Line := do
  match ← peek? with
  | some '[' =>
    char '['
    let name ← textUntil (· = ']')
    char ']'
    return .section (String.ofList (Text.trim name))
  | some c =>
    if c = ';' ∨ c = '#' then
      if fresh then
        let _ ← run (· != '\n')
        return .comment
      else failure
    else
      let key ← textUntil fun c => c = '=' || c = ':'
      let _ ← one fun c => c = '=' || c = ':'
      let key := Text.trim key
      if key.isEmpty then failure
      return .entry (String.ofList key) (← value)
  | none => failure

/-- Skips blanks; tells whether a new line has begun since then. -/
def gap : Reader Bool := do
  let skipped ← run Text.isBlank
  return skipped.getLast? = some '\n'

/-- The lines of a document. -/
def lines : Reader (List Line) := do
  let start ← get
  let begun ← gap
  let fresh := begun || (← get).length == start.length
  if ← atEnd then return []
  let first ← line fresh
  let rest ← many (do
    let fresh ← gap
    line fresh)
  let _ ← gap
  return first :: rest

/-- Puts lines together: the entries of no section stand for themselves. -/
def assemble : List Line → Option String → List (String × Document) → List (String × Document)
  | [], _, t => t
  | .comment :: rest, here, t => assemble rest here t
  | .section name :: rest, _, t => assemble rest (some name) (put name (.table []) t)
  | .entry key v :: rest, none, t => assemble rest none (put key (.text v) t)
  | .entry key v :: rest, some name, t =>
    let entries := match (t.find? (·.1 = name)).map (·.2) with
      | some (.table entries) => entries
      | _ => []
    assemble rest (some name) (put name (.table (put key (.text v) entries)) t)

/-- The document of an INI text. -/
def parse? (s : String) : Option Document :=
  (Reader.readAll? lines s.toList).map fun lines => .table (assemble lines none [])

end Conduit.Document.Ini
