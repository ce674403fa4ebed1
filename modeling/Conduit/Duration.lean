/-
Durations, counted in nanoseconds.
-/
import Conduit.Numeral

namespace Conduit

/-- A length of time. -/
structure Duration where
  nanoseconds : Nat
  deriving DecidableEq, Repr

namespace Duration

open Numeral (tenTo)

def ofSeconds (n : Nat) : Duration := ⟨n * 1000000000⟩

def ofMilliseconds (n : Nat) : Duration := ⟨n * 1000000⟩

def ofMicroseconds (n : Nat) : Duration := ⟨n * 1000⟩

/-- The whole seconds of a duration. -/
def seconds (d : Duration) : Nat := d.nanoseconds / 1000000000

/-- Digits after a point without the zeros at their end, or nothing. -/
def fraction (places n : Nat) : String :=
  let digits := Nat.toDigits 10 n
  let padded := List.replicate (places - digits.length) '0' ++ digits
  let shown := (padded.reverse.dropWhile (· = '0')).reverse
  if shown.isEmpty then "" else String.ofList ('.' :: shown)

/-- An amount of a unit of `10 ^ places` nanoseconds. -/
def amount (n places : Nat) (unit : String) : String :=
  toString (n / tenTo places) ++ fraction places (n % tenTo places) ++ unit

/-- A duration in the greatest unit of which it has at least one whole. -/
def text (d : Duration) : String :=
  let n := d.nanoseconds
  if n ≥ 1000000000 then amount n 9 "s"
  else if n ≥ 1000000 then amount n 6 "ms"
  else if n ≥ 1000 then amount n 3 "µs"
  else toString n ++ "ns"

end Duration

end Conduit
