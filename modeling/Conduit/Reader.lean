/-
Readers of text: a reader takes a value off the front of a list of characters, or fails and takes
nothing. Repetition is bounded by the length of what is left, so every reader is total.
-/
namespace Conduit

/-- Reads a value off the front of a text. -/
abbrev Reader := StateT (List Char) Option

namespace Reader

/-- The next character, which stays in place. -/
def peek? : Reader (Option Char) := return (← get).head?

/-- Takes one character. -/
def any : Reader Char := do
  match ← get with
  | [] => failure
  | c :: rest => set rest; return c

/-- Takes one character of a class. -/
def one (p : Char → Bool) : Reader Char := do
  let c ← any
  if p c then return c else failure

/-- Takes a given character. -/
def char (c : Char) : Reader Unit := do let _ ← one (· = c)

/-- Takes a given text. -/
def word (s : String) : Reader Unit := s.toList.forM char

/-- Takes the longest run of characters of a class. -/
def run (p : Char → Bool) : Reader (List Char) := do
  let cs ← get
  set (cs.dropWhile p)
  return cs.takeWhile p

/-- Takes the longest run of characters of a class, and wants at least one. -/
def run1 (p : Char → Bool) : Reader (List Char) := do
  let cs ← run p
  if cs.isEmpty then failure else return cs

/-- Whether nothing is left. -/
def atEnd : Reader Bool := return (← get).isEmpty

/-- Succeeds when nothing is left. -/
def finish : Reader Unit := do if ← atEnd then return () else failure

/-- Reads what the reader accepts, or nothing. -/
def maybe (r : Reader α) : Reader (Option α) := (some <$> r) <|> pure none

/-- Reads with `r`, at most `fuel` times, until it fails. -/
def upTo (r : Reader α) : Nat → Reader (List α)
  | 0 => return []
  | fuel + 1 => do
    match ← maybe r with
    | none => return []
    | some a => return a :: (← upTo r fuel)

/-- Reads with `r` until it fails. -/
def many (r : Reader α) : Reader (List α) := do upTo r ((← get).length + 1)

/-- Reads with `r`, at most `fuel` times, until `stop` accepts what comes next. -/
def untilAtMost (stop : Reader Unit) (r : Reader α) : Nat → Reader (List α)
  | 0 => failure
  | fuel + 1 => do
    match ← maybe stop with
    | some () => return []
    | none => return (← r) :: (← untilAtMost stop r fuel)

/-- Reads with `r` until `stop` accepts what comes next; fails where both fail. -/
def manyUntil (stop : Reader Unit) (r : Reader α) : Reader (List α) := do
  untilAtMost stop r ((← get).length + 1)

/-- Reads a whole text. -/
def readAll? (r : Reader α) (cs : List Char) : Option α :=
  match (do let a ← r; finish; return a : Reader α) cs with
  | some (a, _) => some a
  | none => none

end Reader

end Conduit
