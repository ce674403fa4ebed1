/-
Filters of events: a list of directives, each of which says up to which level the events of a target
are shown. Of the directives whose target the target of an event begins with, the longest counts;
where none fits, nothing is shown.
-/
import Conduit.Level
import Conduit.Numeral
import Conduit.Text.Blank

namespace Conduit.Logging

/-- How much is shown: nothing, or what is at least as important as a level. -/
inductive Threshold
  | off
  | upTo (l : Level)
  deriving DecidableEq, Repr

namespace Threshold

/-- Whether an event of a level is shown. -/
def admits : Threshold → Level → Bool
  | .off, _ => false
  | .upTo least, l => least.rank ≤ l.rank

/-- The thresholds in words, in the order of their numbers. -/
def words : List (String × Threshold) :=
  [("off", .off), ("error", .upTo .error), ("warn", .upTo .warn), ("info", .upTo .info),
   ("debug", .upTo .debug), ("trace", .upTo .trace)]

/-- The threshold of a word, in any case, or of a number. -/
def ofText? (s : String) : Option Threshold :=
  match Numeral.natural? s.toList with
  | some n => (words[n]?).map (·.2)
  | none =>
    let word := String.ofList (s.toList.map Char.toLower)
    (words.find? (·.1 = word)).map (·.2)

end Threshold

/-- What is shown of a target, or of all. A directive for the inside of spans has no say over events
outside of them. -/
structure Directive where
  target : Option String
  threshold : Threshold
  inSpans : Bool := false
  deriving DecidableEq, Repr

namespace Directive

/-- Whether a character may begin a directive. -/
def isStart (c : Char) : Bool := c.isAlphanum || c.toNat ≥ 0x80 || [':', '-', '_'].contains c

/-- The threshold behind a sign of equality; nothing there means all. -/
def thresholdAfter? (s : String) : Option Threshold :=
  if s = "" then some (.upTo .trace) else Threshold.ofText? s

/-- A directive that speaks of spans: brackets, and perhaps a threshold. -/
def spanRest? (target : Option String) (cs : List Char) : Option Directive :=
  match cs.dropWhile (· != ']') with
  | [']'] => some { target, threshold := .upTo .trace, inSpans := true }
  | ']' :: '=' :: level =>
    (thresholdAfter? (String.ofList level)).map fun threshold => { target, threshold, inSpans := true }
  | _ => none

/-- The directive of a text: a threshold, a target, or both with a sign of equality between them. -/
def ofText? (s : String) : Option Directive :=
  let cs := s.toList
  match cs with
  | [] => none
  | '[' :: rest => spanRest? none rest
  | c :: _ =>
    if !isStart c then none
    else
      let name := cs.takeWhile fun c => c != '=' && c != '['
      match cs.dropWhile fun c => c != '=' && c != '[' with
      | [] =>
        match Threshold.ofText? s with
        | some threshold => some { target := none, threshold }
        | none => some { target := some s, threshold := .upTo .trace }
      | '=' :: level =>
        (thresholdAfter? (String.ofList level)).map fun threshold =>
          { target := some (String.ofList name), threshold }
      | _ :: rest => spanRest? (some (String.ofList name)) rest

/-- Whether a directive speaks of the events of a target. -/
def fits (d : Directive) (target : String) : Bool :=
  !d.inSpans && d.target.all fun t => t.toList.isPrefixOf target.toList

/-- How closely a directive names its target. -/
def weight (d : Directive) : Nat :=
  match d.target with
  | none => 0
  | some t => t.utf8ByteSize + 1

end Directive

/-- A filter. -/
abbrev Filter := List Directive

namespace Filter

/-- The filter of a text with commas between the directives; empty parts do not count. One part that
is no directive spoils the whole. -/
def ofText? (s : String) : Option Filter :=
  ((s.splitOn ",").filter (· ≠ "")).mapM Directive.ofText?

/-- The directive that decides about a target; of several that name it as closely the last. -/
def deciding? (f : Filter) (target : String) : Option Directive :=
  (f.filter (·.fits target)).foldl (fun best d =>
    match best with
    | none => some d
    | some b => if b.weight ≤ d.weight then some d else some b) none

/-- Whether an event is shown. -/
def admits (f : Filter) (target : String) (level : Level) : Bool :=
  (f.deciding? target).any (·.threshold.admits level)

end Filter

end Conduit.Logging
