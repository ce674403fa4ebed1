/-
Quoted text: a text between double quotes, with escapes for quotes, backslashes and everything that
would not be seen.
-/
import Conduit.Text.Hidden

namespace Conduit.Text

/-- The number of a character in base 16, in lower case. -/
def hexDigits (c : Char) : List Char := Nat.toDigits 16 c.toNat

/-- The written form of one character inside quotes. -/
def escape (c : Char) : List Char :=
  if c = '\x00' then ['\\', '0']
  else if c = '\t' then ['\\', 't']
  else if c = '\r' then ['\\', 'r']
  else if c = '\n' then ['\\', 'n']
  else if c = '\x22' then ['\\', '\x22']
  else if c = '\\' then ['\\', '\\']
  else if isHidden c then ['\\', 'u', '\x7b'] ++ hexDigits c ++ ['\x7d']
  else [c]

/-- A text in double quotes. -/
def quoted (s : String) : String :=
  String.ofList ('\x22' :: s.toList.flatMap escape ++ ['\x22'])

end Conduit.Text
