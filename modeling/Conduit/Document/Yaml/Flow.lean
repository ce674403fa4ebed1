/-
Values of YAML text in the flow style: lists in brackets, tables in braces, and scalars in quotes
or plain.
-/
import Conduit.Document.Yaml.Scalar

namespace Conduit.Document.Yaml

open Reader (one char run many manyUntil peek? any maybe)

/-- Skips blanks, line breaks and comments. -/
def gap : Reader Unit := do
  let _ ← many ((do let _ ← Reader.run1 isBreakable) <|>
    (do char '#'; let _ ← run (· != '\n')))

/-- Whether a character ends a plain scalar within brackets. -/
def isFlowMark (c : Char) : Bool := [',', '[', ']', '\x7b', '\x7d'].contains c

/-- A plain scalar within brackets: it ends before a mark, before a colon with a blank or a mark after
it, and before a comment. -/
def plainRest (acc : List Char) : List Char → List Char × List Char
  | [] => (acc, [])
  | ':' :: c :: rest =>
    if isBreakable c || isFlowMark c then (acc, ':' :: c :: rest)
    else plainRest (':' :: acc) (c :: rest)
  | c :: '#' :: rest =>
    if isBreakable c then (acc, c :: '#' :: rest) else plainRest (c :: acc) ('#' :: rest)
  | c :: rest =>
    if isFlowMark c || c = '\n' then (acc, c :: rest) else plainRest (c :: acc) rest

/-- A plain scalar within brackets, as text. -/
def plainText : Reader String := do
  let (acc, rest) := plainRest [] (← get)
  set rest
  let text := (acc.dropWhile isBreakable).reverse
  match text with
  | [] => failure
  | c :: _ =>
    if ['&', '*', '!', '|', '>', '@', '%', '\x60'].contains c then failure
    else return String.ofList text

/-- A plain scalar within brackets. -/
def plainScalar : Reader Document := do
  match plain? (← plainText) with
  | some d => return d
  | none => failure

/-- The text that a key stands for. -/
def keyText? : Document → Option String
  | .text s => some s
  | .int i => some (toString i)
  | .bool true => some "true"
  | .bool false => some "false"
  | .float x => some x.text
  | _ => none

/-- Entries as a table; a key may come once. -/
def distinctTable? (entries : List (String × Document)) : Option Document :=
  let keys := entries.map (·.1)
  if keys.Nodup then some (tableOf entries) else none

/-- The items of a container, up to its closing bracket; a comma may follow the last one. -/
def items (close : Char) (item : Reader α) : Reader (List α) := do
  gap
  manyUntil (char close) do
    let a ← item
    gap
    match ← peek? with
    | some ',' => let _ ← any; gap; return a
    | some c => if c = close then return a else failure
    | none => failure

/-- A key within braces. -/
def flowKey : Reader String :=
  quoted <|> do
    let d ← plainScalar
    match keyText? d with
    | some k => return k
    | none => failure

/-- A value with at most `depth` levels, its own included. -/
def flow : Nat → Reader Document
  | 0 => failure
  | depth + 1 => do
    match ← peek? with
    | some '[' => char '['; return .list (← items ']' (flow depth))
    | some '\x7b' =>
      char '\x7b'
      let entries ← items '\x7d' do
        let k ← flowKey
        gap
        match ← maybe (char ':') with
        | none => return (k, .null)
        | some () =>
          gap
          match ← peek? with
          | some ',' => return (k, .null)
          | some '\x7d' => return (k, .null)
          | _ => return (k, ← flow depth)
      match distinctTable? entries with
      | some d => return d
      | none => failure
    | some '\x22' => return .text (← quoted)
    | some '\'' => return .text (← quoted)
    | _ => plainScalar

end Conduit.Document.Yaml
