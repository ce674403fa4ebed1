/-
Lines of the log: how an event is written to the console in each format, and to files.
-/
import Conduit.Document.Json
import Conduit.Level
import Conduit.Logging.Config
import Conduit.Text.Quoted
import Conduit.Text.Record

namespace Conduit.Logging

/-- A value of a field of an event: a text, which is shown bare or in quotes, a number or a truth
value. -/
inductive FieldValue
  | bare (s : String)
  | quoted (s : String)
  | int (i : Int)
  | bool (b : Bool)
  deriving DecidableEq, Repr

/-- An event that is logged. -/
structure Event where
  level : Level
  target : String
  message : String
  fields : List (String × FieldValue) := []
  deriving DecidableEq, Repr

namespace FieldValue

/-- A value in plain lines. -/
def text : FieldValue → String
  | .bare s => s
  | .quoted s => Text.quoted s
  | .int i => toString i
  | .bool b => Text.truth b

/-- A value in lines of JSON. -/
def json : FieldValue → String
  | .bare s => Document.Json.quoted s
  | .quoted s => Document.Json.quoted s
  | .int i => toString i
  | .bool b => Text.truth b

end FieldValue

/-- What stands for the time of an event. -/
def timeMark : String := "TIME"

/-- What stands for the place in the code that an event comes from. -/
def placeMark : String := "FILE"

/-- The name of the thread that logs. -/
def threadName : String := "main"

/-! ## Texts -/

/-- A character of a message, made harmless for terminals. -/
def harmless (c : Char) : List Char :=
  if c = '\x1b' then "\\x1b".toList
  else if c = '\x07' then "\\x07".toList
  else if c = '\x08' then "\\x08".toList
  else if c = '\x0c' then "\\x0c".toList
  else if c = '\x7f' then "\\x7f".toList
  else if 0x80 ≤ c.toNat ∧ c.toNat ≤ 0x9f then
    ['\\', 'u', '\x7b'] ++ Nat.toDigits 16 c.toNat ++ ['\x7d']
  else [c]

/-- A message in plain lines. -/
def messageText (s : String) : String := String.ofList (s.toList.flatMap harmless)

/-- The name of a level, as wide as the widest. -/
def levelText (l : Level) : String :=
  String.ofList (List.replicate (5 - l.name.length) ' ') ++ l.name

/-- The colour of a level. -/
def colourOf : Level → String
  | .trace => "35"
  | .debug => "34"
  | .info => "32"
  | .warn => "33"
  | .error => "31"

/-- Switches to a style of a terminal; `0` is the plain style. -/
def style (code : String) : String := "\x1b[" ++ code ++ "m"

/-- A text in a style, if styles are used. -/
def styled (ansi : Bool) (code text : String) : String :=
  if ansi then style code ++ text ++ style "0" else text

/-! ## Formats -/

/-- A line of JSON. -/
def jsonLine (c : Config) (e : Event) : String :=
  let q := Document.Json.quoted
  let pair (k v : String) := q k ++ ":" ++ v
  let braces (parts : List String) := "\x7b" ++ ",".intercalate parts ++ "\x7d"
  let fields := pair "message" (q e.message) :: e.fields.map fun (k, v) => pair k v.json
  braces <|
    [pair "timestamp" (q timeMark), pair "level" (q e.level.name), pair "fields" (braces fields)] ++
    (if c.withTarget then [pair "target" (q e.target)] else []) ++
    if c.withThreadIds then [pair "threadName" (q threadName), pair "threadId" (q "ThreadId(1)")]
    else []

/-- The time and the level at the beginning of a line. -/
def opening (ansi : Bool) (l : Level) : String :=
  styled ansi "2" timeMark ++ " " ++ styled ansi (colourOf l) (levelText l) ++ " "

/-- The message and the fields of a line on which fields follow after blanks. -/
def plainFields (ansi : Bool) (e : Event) : String :=
  messageText e.message ++ String.join (e.fields.map fun (k, v) =>
    " " ++ styled ansi "3" k ++ styled ansi "2" "=" ++ v.text)

/-- A compact line. -/
def compactLine (c : Config) (e : Event) : String :=
  opening c.withAnsi e.level ++
  (if c.withThreadIds then threadName ++ " ThreadId(01) " else "") ++
  (if c.withTarget then
    styled c.withAnsi "2" e.target ++ styled c.withAnsi "2" ":" ++ " " else "") ++
  plainFields c.withAnsi e

/-- A line of a file. -/
def fileLine (e : Event) : String :=
  opening false e.level ++ "ThreadId(01) " ++ e.target ++ ": " ++ plainFields false e

/-- The lines of an event in the pretty format: the event, where it comes from, and nothing. -/
def prettyText (c : Config) (e : Event) : String :=
  let ansi := c.withAnsi
  let colour := colourOf e.level
  let inColour := if ansi then style colour else ""
  let bold (s : String) := if ansi then style ("1;" ++ colour) ++ s ++ style "0" ++ inColour else s
  let target := if c.withTarget then bold e.target ++ ":" else ""
  let fields := e.fields.map fun (k, v) => bold k ++ ": " ++ v.text
  "  " ++ opening ansi e.level ++ target ++ " " ++
  ", ".intercalate ((inColour ++ messageText e.message) :: fields) ++
  (if ansi then style "0" else "") ++ "\n" ++
  "    " ++ styled ansi "2;3" "at" ++ " " ++ placeMark ++
  (if c.withThreadIds then " " ++ styled ansi "2;3" "on" ++ " " ++ threadName ++ " ThreadId(1)"
    else "") ++ "\n\n"

/-- What an event writes to the console. -/
def consoleText (c : Config) (e : Event) : String :=
  match c.format with
  | .json => jsonLine c e ++ "\n"
  | .compact => compactLine c e ++ "\n"
  | .pretty => prettyText c e

/-- The lines of a text in which every line ends in a line break. -/
def linesOf (s : String) : List String :=
  match (s.splitOn "\n").reverse with
  | "" :: back => back.reverse
  | back => back.reverse

end Conduit.Logging
