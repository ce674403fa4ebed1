/-
Paths into settings as text: names of letters, digits, underscores and hyphens, with dots between
them, and places of lists in square brackets. A text that is no path is one name.
-/
import Conduit.Numeral
import Conduit.Reader
import Conduit.Settings.Tree

namespace Conduit.Settings

open Conduit.Settings.Tree (Step)

namespace Path

/-- Whether a character may stand in a name. -/
def isNameChar (c : Char) : Bool := c.isAlphanum || c = '_' || c = '-'

/-- Reads a name. -/
def name : Reader Step := do return .key (String.ofList (← Reader.run1 isNameChar))

/-- Whether a character may stand around the number of a place. -/
def isGap (c : Char) : Bool := c = ' ' || c = '\t'

/-- Reads a place in a list, in brackets: a number that fits 64 bits with a sign. -/
def place : Reader Step := do
  Reader.char '['
  let _ ← Reader.run isGap
  let sign := (← Reader.maybe (Reader.char '-')).isSome
  let digits ← Reader.run1 Char.isDigit
  let _ ← Reader.run isGap
  Reader.char ']'
  let n : Int := (Numeral.digits? digits).getD 0
  let i := if sign then -n else n
  if Numeral.fitsSigned i then return .index i else failure

/-- Reads a path. -/
def path : Reader (List Step) := do
  let first ← name
  let rest ← Reader.many (place <|> do Reader.char '.'; name)
  return first :: rest

end Path

/-- The path of a text. -/
def pathOf (s : String) : List Step :=
  (Reader.readAll? Path.path s.toList).getD [.key s]

end Conduit.Settings
