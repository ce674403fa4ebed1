/-
YAML text in the block style: tables and lists by indentation. The text is taken line by line; what
belongs to a value is told by how far its lines are indented. Lists in brackets and texts in quotes
may go over several lines. Anchors, aliases and tags are not read.
-/
import Conduit.Document.Yaml.Flow

namespace Conduit.Document.Yaml

/-- A line: the spaces at its beginning, counted, and the rest. -/
structure Line where
  indent : Nat
  text : List Char

namespace Line

/-- The line of a text without line breaks. -/
def ofText (cs : List Char) : Line :=
  let cs := (cs.reverse.dropWhile fun c => c = ' ' || c = '\t' || c = '\r').reverse
  { indent := (cs.takeWhile (· = ' ')).length, text := cs.dropWhile (· = ' ') }

/-- Whether a line has nothing on it, or only a comment. -/
def isIdle (l : Line) : Bool :=
  match l.text with
  | [] => true
  | c :: _ => c = '#'

/-- The line as it was written, without the first `n` spaces. -/
def raw (l : Line) (n : Nat) : List Char := List.replicate (l.indent - n) ' ' ++ l.text

/-- Whether a line begins with a mark, with nothing or a blank after it. -/
def begins (l : Line) (mark : String) : Bool :=
  let m := mark.toList
  m.isPrefixOf l.text && match l.text.drop m.length with
    | [] => true
    | c :: _ => c = ' ' || c = '\t'

end Line

/-- Whether a text is an item of a list. -/
def isItem (cs : List Char) : Bool :=
  match cs with
  | ['-'] => true
  | '-' :: c :: _ => c = ' ' || c = '\t'
  | _ => false

/-- Cuts a comment, and the blanks before it, off a plain text; tells whether there was one. -/
def cutComment (acc : List Char) : List Char → List Char × Bool
  | [] => ((acc.dropWhile isBreakable).reverse, false)
  | c :: '#' :: rest =>
    if isBreakable c then ((acc.dropWhile isBreakable).reverse, true)
    else cutComment (c :: acc) ('#' :: rest)
  | c :: rest => cutComment (c :: acc) rest

/-- Splits a plain text at the first colon that ends a key. -/
def splitKey (acc : List Char) : List Char → Option (List Char × List Char)
  | [] => none
  | [':'] => some (acc.reverse, [])
  | ':' :: c :: rest =>
    if c = ' ' || c = '\t' then some (acc.reverse, c :: rest) else splitKey (':' :: acc) (c :: rest)
  | c :: '#' :: rest => if isBreakable c then none else splitKey (c :: acc) ('#' :: rest)
  | c :: rest => splitKey (c :: acc) rest

/-- Whether a rest is blank, or a comment after a blank. -/
def isRestIdle (cs : List Char) : Bool :=
  match cs with
  | [] => true
  | c :: _ => isBreakable c && match cs.dropWhile isBreakable with
    | [] => true
    | d :: _ => d = '#'

/-- The key and the rest of a line that is an entry of a table. -/
def keyed? (cs : List Char) : Option (String × List Char) :=
  match cs with
  | [] => none
  | c :: _ =>
    if c = '\x22' ∨ c = '\'' then
      match quoted cs with
      | some (k, rest) =>
        match rest.dropWhile (· = ' ') with
        | [':'] => some (k, [])
        | ':' :: d :: rest => if isBreakable d then some (k, d :: rest) else none
        | _ => none
      | none => none
    else if ['&', '*', '!', '|', '>', '@', '%', '\x60', '[', '\x7b', '#'].contains c then none
    else
      (splitKey [] cs).bind fun (k, rest) =>
        let k := (k.reverse.dropWhile isBreakable).reverse
        (plain? (String.ofList k)).bind keyText? |>.map (·, rest)

/-- Skips idle lines. -/
def significant (lines : List Line) : List Line := lines.dropWhile Line.isIdle

/-! ## Values that begin on a line -/

/-- A value in the flow style, which may go on over the lines that follow. -/
def flowValue (cs : List Char) (lines : List Line) : Option (Document × List Line) := do
  let following := lines.flatMap fun l => '\n' :: l.raw 0
  let (d, rest) ← flow 64 (cs ++ following)
  if isRestIdle (rest.takeWhile (· != '\n')) then
    return (d, lines.drop (lines.length - rest.count '\n'))
  else failure

/-- The further lines of a plain scalar, indented by at least `least`, and what is left. Idle lines
between them count as line breaks. -/
def plainLines (least : Nat) (acc : List Char) (gaps : Nat) :
    List Line → Option (List Char × List Line)
  | [] => some (acc, [])
  | l :: rest =>
    if l.text.isEmpty then plainLines least acc (gaps + 1) rest
    else if l.isIdle || l.indent < least then some (acc, l :: rest)
    else
      let (words, commented) := cutComment [] l.text
      if (splitKey [] words).isSome then none
      else
        let joint := if gaps = 0 then [' '] else List.replicate gaps '\n'
        if commented then some (acc ++ joint ++ words, rest)
        else plainLines least (acc ++ joint ++ words) 0 rest

/-- A plain scalar, which may go on over lines indented by at least `least`. -/
def plainValue (least : Nat) (cs : List Char) (lines : List Line) :
    Option (Document × List Line) := do
  let (words, commented) := cutComment [] cs
  if (splitKey [] words).isSome then failure
  match words with
  | [] => failure
  | c :: _ =>
    if ['&', '*', '!', '@', '%', '\x60', ',', ']', '\x7d'].contains c then failure
    let (words, lines) ← if commented then some (words, lines) else plainLines least words 0 lines
    return (← plain? (String.ofList words), lines)

/-- How a text of whole lines ends: with one line break, with none, or with all there are. -/
inductive Chomp
  | clip
  | strip
  | keep

/-- The mark of a text of whole lines: whether lines are folded, by how much the lines are indented
if that is said, and how the text ends. -/
def blockMark? (cs : List Char) : Option (Bool × Option Nat × Chomp) :=
  let (cs, _) := cutComment [] cs
  let mark (folded : Bool) (marks : List Char) : Option (Bool × Option Nat × Chomp) :=
    let width := (marks.find? Char.isDigit).map fun c => c.toNat - '0'.toNat
    let chomp := if marks.contains '-' then Chomp.strip
      else if marks.contains '+' then .keep else .clip
    if marks.length ≤ 2 ∧ marks.all (fun c => c.isDigit || c = '-' || c = '+') then
      some (folded, width, chomp)
    else none
  match cs with
  | '|' :: marks => mark false marks
  | '>' :: marks => mark true marks
  | _ => none

/-- Joins lines: each ends in a line break. -/
def literalLines (lines : List (List Char)) : List Char := lines.flatMap (· ++ ['\n'])

/-- Joins lines so that a single break between two lines that are not indented further is a
space. -/
def foldedLines : List (List Char) → List Char
  | [] => []
  | [l] => l ++ ['\n']
  | l :: m :: rest =>
    let isText (x : List Char) : Bool := match x with
      | [] => false
      | c :: _ => c != ' ' && c != '\t'
    let joint := if isText l && isText m then [' ']
      else if isText l && m.isEmpty then [] else ['\n']
    l ++ joint ++ foldedLines (m :: rest)

/-- A text of whole lines, indented by at least `least`. -/
def blockText (least : Nat) (cs : List Char) (lines : List Line) :
    Option (Document × List Line) := do
  let (folded, width, chomp) ← blockMark? cs
  let first := (lines.dropWhile (·.text.isEmpty)).head?
  let indent := match width with
    | some w => least - 1 + w
    | none => max least ((first.map (·.indent)).getD least)
  let belongs (l : Line) : Bool := l.text.isEmpty || indent ≤ l.indent
  let mine := lines.takeWhile belongs
  let texts := mine.map fun l => if l.text.isEmpty then l.text else l.raw indent
  let full := (texts.reverse.dropWhile (·.isEmpty)).reverse
  let trailing := texts.length - full.length
  let body := if folded then foldedLines full else literalLines full
  let body := match chomp with
    | .strip => if body.isEmpty then body else body.dropLast
    | .clip => body
    | .keep => body ++ List.replicate trailing '\n'
  return (.text (String.ofList body), lines.dropWhile belongs)

/-! ## Blocks -/

mutual

/-- The value that begins on a line with the text `cs`; what goes on is indented by at least
`least`. -/
def inlineValue (least : Nat) (cs : List Char) (lines : List Line) :
    Option (Document × List Line) :=
  match cs with
  | '|' :: _ => blockText least cs lines
  | '>' :: _ => blockText least cs lines
  | '\x22' :: _ => flowValue cs lines
  | '\'' :: _ => flowValue cs lines
  | '[' :: _ => flowValue cs lines
  | '\x7b' :: _ => flowValue cs lines
  | _ => plainValue least cs lines

/-- The value of the lines that are indented by at least `least`. -/
def block (fuel least : Nat) (lines : List Line) : Option (Document × List Line) :=
  match fuel with
  | 0 => none
  | fuel + 1 =>
    match significant lines with
    | [] => some (.null, [])
    | l :: rest =>
      if l.indent < least then some (.null, l :: rest)
      else if l.text.head? = some '\t' then none
      else if isItem l.text then
        (list fuel l.indent [] (l :: rest)).map fun (items, rest) => (.list items, rest)
      else if (keyed? l.text).isSome then do
        let (entries, rest) ← table fuel l.indent [] (l :: rest)
        return (← distinctTable? entries, rest)
      else inlineValue least l.text rest

/-- The items of a list whose lines are indented by `indent`. -/
def list (fuel indent : Nat) (acc : List Document) (lines : List Line) :
    Option (List Document × List Line) :=
  match fuel with
  | 0 => none
  | fuel + 1 =>
    match significant lines with
    | [] => some (acc.reverse, [])
    | l :: rest =>
      if l.indent > indent then none
      else if l.indent < indent || !isItem l.text then some (acc.reverse, l :: rest)
      else do
        let body := l.text.drop 1
        let spaces := (body.takeWhile (· = ' ')).length
        let inner := body.drop spaces
        let (d, rest) ←
          if inner.isEmpty || inner.head? = some '#' then block fuel (indent + 1) rest
          else if isItem inner || (keyed? inner).isSome then
            block fuel (indent + 1) ({ indent := indent + 1 + spaces, text := inner } :: rest)
          else inlineValue (indent + 1) inner rest
        list fuel indent (d :: acc) rest

/-- The entries of a table whose lines are indented by `indent`. -/
def table (fuel indent : Nat) (acc : List (String × Document)) (lines : List Line) :
    Option (List (String × Document) × List Line) :=
  match fuel with
  | 0 => none
  | fuel + 1 =>
    match significant lines with
    | [] => some (acc.reverse, [])
    | l :: rest =>
      if l.indent > indent || l.text.head? = some '\t' then none
      else if l.indent < indent then some (acc.reverse, l :: rest)
      else do
        let (key, after) ← keyed? l.text
        let inner := after.dropWhile isBreakable
        let (d, rest) ←
          if inner.isEmpty || inner.head? = some '#' then
            match significant rest with
            | [] => some (.null, [])
            | next :: more =>
              if next.indent = indent && isItem next.text then
                (list fuel indent [] (next :: more)).map fun (items, rest) => (.list items, rest)
              else block fuel (indent + 1) rest
          else inlineValue (indent + 1) inner rest
        table fuel indent ((key, d) :: acc) rest

end

/-! ## Documents -/

/-- The lines of a text. -/
def linesOf (s : String) : List Line := (s.splitOn "\n").map fun l => Line.ofText l.toList

/-- Whether a line is a mark between documents. -/
def isMark (mark : String) (l : Line) : Bool := l.indent = 0 && l.begins mark

/-- The document of a YAML text. A text with nothing in it is an empty table; more than one document
is refused. -/
def parse? (s : String) : Option Document := do
  let lines := significant (linesOf s)
  let (opened, lines) := match lines with
    | [] => (false, [])
    | l :: rest =>
      if isMark "---" l then
        let inner := (l.text.drop 3).dropWhile isBreakable
        (true, if inner.isEmpty then rest else { indent := 4, text := inner } :: rest)
      else (false, l :: rest)
  let isEnd (l : Line) : Bool := isMark "---" l || isMark "..." l
  let mine := lines.takeWhile (!isEnd ·)
  let others := lines.dropWhile (!isEnd ·)
  if others.any (isMark "---") then failure
  if (significant mine).isEmpty && !opened then return .table []
  let (d, rest) ← block (2 * s.length + 8) 0 mine
  if (significant rest).isEmpty then return d else failure

end Conduit.Document.Yaml
