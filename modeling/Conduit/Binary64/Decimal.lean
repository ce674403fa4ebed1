/-
The decimal texts of a binary64 number. Writing takes the fewest digits that read back to the same
number, and of those the ones nearest to it; the text is positional and has no exponent. Reading
takes an optional sign, digits with an optional point, an optional exponent, and the names of the
special numbers in any case.
-/
import Conduit.Binary64

namespace Conduit.Binary64

open Numeral (twoTo tenTo)

/-! ## Writing -/

/-- The magnitude `m * 2 ^ e` as a quotient, with room for half of a last place. -/
def quarters (m : Nat) (e : Int) : Nat × Nat :=
  if e ≥ 2 then (m * twoTo e.toNat, 1) else (m * 4, twoTo (2 - e).toNat)

/-- The ends of the reals that read as `m * 2 ^ e`, over the denominator of `quarters`. -/
def readingEnds (m : Nat) (e : Int) : Nat × Nat :=
  let unit : Nat := if e ≥ 2 then twoTo (e.toNat - 2) else 1
  let below := if m = twoTo 52 ∧ e > leastExponent then unit else 2 * unit
  let whole := (quarters m e).1
  (whole - below, whole + 2 * unit)

/-- Whether `d * 10 ^ k` reads as `m * 2 ^ e`. The ends count when the significand is even. -/
def readsAs (m : Nat) (e : Int) (d : Nat) (k : Int) : Bool :=
  let den := (quarters m e).2
  let (low, high) := readingEnds m e
  let (v, scale) := if k ≥ 0 then (d * tenTo k.toNat * den, 1) else (d * den, tenTo (-k).toNat)
  if m % 2 = 0 then decide (low * scale ≤ v) && decide (v ≤ high * scale)
  else decide (low * scale < v) && decide (v < high * scale)

/-- The whole part of `m * 2 ^ e / 10 ^ k`, and whether the rest is at least a half. -/
def wholePart (m : Nat) (e : Int) (k : Int) : Nat × Bool :=
  let (n, den) := quarters m e
  let (n, d) := if k ≥ 0 then (n, den * tenTo k.toNat) else (n * tenTo (-k).toNat, den)
  (n / d, decide (2 * (n % d) ≥ d))

/-- The power of ten of the leading digit of `m * 2 ^ e`. -/
def leadingPower (m : Nat) (e : Int) : Int :=
  let (n, d) := quarters m e
  if n ≥ d then (digitCount (n / d) : Int) - 1 else
    -- the least `p` with `n * 10 ^ p ≥ d` lies within one of the difference of the digit counts
    let p := digitCount d - digitCount n
    if n * tenTo p ≥ d then -(p : Int) else -((p : Int) + 1)

/-- The digits at scale `10 ^ k`, when one of the two neighbours on that grid reads back. -/
def onGrid (m : Nat) (e : Int) (k : Int) : Option Nat :=
  let (d, up) := wholePart m e k
  let (first, second) := if up then (d + 1, d) else (d, d + 1)
  if readsAs m e first k then some first
  else if readsAs m e second k then some second
  else none

/-- Searches grids of one digit, two digits and so on, up to 17. -/
def searchGrids (m : Nat) (e : Int) (top : Int) : Nat → Nat → Nat × Int
  | 0, n => ((wholePart m e (top - n)).1, top - n)
  | fuel + 1, n =>
    match onGrid m e (top - n) with
    | some d => (d, top - n)
    | none => searchGrids m e top fuel (n + 1)

/-- Moves trailing zeros of the digits into the power of ten. -/
def stripZeros : Nat → Nat → Int → Nat × Int
  | 0, d, k => (d, k)
  | fuel + 1, d, k => if d ≠ 0 ∧ d % 10 = 0 then stripZeros fuel (d / 10) (k + 1) else (d, k)

/-- The fewest digits `d`, with a power `k`, such that `d * 10 ^ k` reads as `m * 2 ^ e`. -/
def shortest (m : Nat) (e : Int) : Nat × Int :=
  let (d, k) := searchGrids m e (leadingPower m e) 17 0
  stripZeros (digitCount d) d k

/-- Digits written out positionally. -/
def positional (d : Nat) (k : Int) : String :=
  let ds := Nat.toDigits 10 d
  if k ≥ 0 then String.ofList (ds ++ List.replicate k.toNat '0')
  else
    let places := (-k).toNat
    if ds.length > places then
      String.ofList (ds.take (ds.length - places) ++ '.' :: ds.drop (ds.length - places))
    else String.ofList ('0' :: '.' :: List.replicate (places - ds.length) '0' ++ ds)

/-- The text of a number: no exponent, and no point where the number is whole. -/
def text : Binary64 → String
  | .nan => "NaN"
  | .infinite negative => if negative then "-inf" else "inf"
  | .finite negative m e =>
    let body := if m = 0 then "0" else let (d, k) := shortest m e; positional d k
    if negative then "-" ++ body else body

/-- The text of a number that always shows a point, unless it is no finite number. -/
def pointedText (x : Binary64) : String :=
  match x with
  | .finite .. => if x.text.contains '.' then x.text else x.text ++ ".0"
  | _ => x.text

/-- Digits times a power of ten, written positionally while the number stays within `10 ^ 16` and
`10 ^ -5`, and else with one digit before the point and an exponent. -/
def withExponent (d : Nat) (k : Int) : String :=
  let ds := Nat.toDigits 10 d
  let size : Int := ds.length + k
  if 0 ≤ k ∧ size ≤ 16 then positional d k ++ ".0"
  else if -5 < size ∧ size ≤ 16 then positional d k
  else
    let head := String.ofList (ds.take 1)
    let tail := String.ofList (ds.drop 1)
    head ++ (if tail.isEmpty then "" else "." ++ tail) ++ "e" ++ toString (size - 1)

/-- The text of a number that always shows a point or an exponent, unless it is no finite number. -/
def compactText (x : Binary64) : String :=
  match x with
  | .finite negative m e =>
    let body := if m = 0 then "0.0" else let (d, k) := shortest m e; withExponent d k
    if negative then "-" ++ body else body
  | _ => x.text

/-! ## Reading -/

/-- The value of a run of decimal digits that follows a number already read. -/
def digitsValue (start : Nat) (cs : List Char) : Nat :=
  cs.foldl (fun n c => 10 * n + (c.toNat - '0'.toNat)) start

/-- A sign, when there is one, and what follows it. -/
def signed : List Char → Bool × List Char
  | '-' :: r => (true, r)
  | '+' :: r => (false, r)
  | r => (false, r)

/-- The exponent part: the letter, an optional sign and at least one digit. -/
def exponent? : List Char → Option Int
  | [] => some 0
  | c :: r =>
    if c = 'e' ∨ c = 'E' then
      let (negative, ds) := signed r
      if ds.isEmpty || !ds.all Char.isDigit then none
      else some (if negative then -(digitsValue 0 ds : Int) else digitsValue 0 ds)
    else none

/-- Digits with an optional point, then an optional exponent. -/
def magnitude? (negative : Bool) (cs : List Char) : Option Binary64 :=
  let whole := cs.takeWhile Char.isDigit
  let rest := cs.dropWhile Char.isDigit
  let (fraction, rest) := match rest with
    | '.' :: r => (r.takeWhile Char.isDigit, r.dropWhile Char.isDigit)
    | r => ([], r)
  if whole.isEmpty && fraction.isEmpty then none
  else
    (exponent? rest).map fun k =>
      ofDecimal negative (digitsValue (digitsValue 0 whole) fraction) (k - fraction.length)

/-- Reads a number. -/
def ofText? (s : String) : Option Binary64 :=
  let (negative, cs) := signed s.toList
  let name := String.ofList (cs.map Char.toLower)
  if name = "inf" ∨ name = "infinity" then some (.infinite negative)
  else if name = "nan" then some .nan
  else magnitude? negative cs

end Conduit.Binary64
