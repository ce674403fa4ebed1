/-
Panics: what a callback or a handler leaves with when it does not return.
-/
namespace Conduit

/-- What a panic carries: a text, or something that is no text. -/
inductive Panic
  | text (s : String)
  | other
  deriving DecidableEq, Repr

/-- The text under which a caught panic is reported. -/
def Panic.message : Panic → String
  | .text s => s
  | .other => "non-string panic payload"

end Conduit
