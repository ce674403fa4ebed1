/-
Binary floating point numbers of 64 bits as exact values: a significand times a power of two, the
two infinities, and the number that stands for no value. Decimal text is read to the nearest such
number, and a tie goes to the even significand.
-/
import Conduit.Numeral

namespace Conduit

/-- A number of the binary64 format. A finite number is `significand * 2 ^ exponent`; its
significand has at most 53 bits, and fewer only at the least exponent. -/
inductive Binary64
  | nan
  | infinite (negative : Bool)
  | finite (negative : Bool) (significand : Nat) (exponent : Int)
  deriving DecidableEq, Repr

namespace Binary64

open Numeral (twoTo tenTo)

/-- The exponent of the least positive number. -/
def leastExponent : Int := -1074

/-- The exponent of the greatest finite number. -/
def greatestExponent : Int := 971

/-- Zero, which keeps its sign. -/
def zero (negative : Bool) : Binary64 := .finite negative 0 leastExponent

/-- The integer nearest to `n / d`; a tie goes to the even one. -/
def halfEven (n d : Nat) : Nat :=
  let q := n / d
  let r := n % d
  if 2 * r > d ∨ (2 * r = d ∧ q % 2 = 1) then q + 1 else q

/-- The pair whose quotient is `num / den` divided by `2 ^ e`. -/
def scaled (num den : Nat) (e : Int) : Nat × Nat :=
  if e ≥ 0 then (num, den * twoTo e.toNat) else (num * twoTo (-e).toNat, den)

/-- The exponent at which `num / den` has a whole part of 53 bits, or the least exponent. -/
def exponentOf (num den : Nat) : Int :=
  let guess : Int := (num.log2 : Int) - (den.log2 : Int) - 53
  let (n, d) := scaled num den guess
  let e := if n / d ≥ twoTo 53 then guess + 1 else guess
  max e leastExponent

/-- The number nearest to `num / den`; beyond the greatest finite number it is infinite. -/
def nearest (negative : Bool) (num den : Nat) : Binary64 :=
  if num = 0 then zero negative
  else
    let e := exponentOf num den
    let (n, d) := scaled num den e
    let m := halfEven n d
    let (m, e) := if m = twoTo 53 then (twoTo 52, e + 1) else (m, e)
    if e > greatestExponent then .infinite negative else .finite negative m e

/-- The count of decimal digits of a number; zero has one. -/
def digitCount (n : Nat) : Nat := (Nat.toDigits 10 n).length

/-- The number nearest to `digits * 10 ^ power`. -/
def ofDecimal (negative : Bool) (digits : Nat) (power : Int) : Binary64 :=
  if digits = 0 then zero negative
  else
    let size : Int := (digitCount digits : Int) + power
    if size > 310 then .infinite negative
    else if size < -330 then zero negative
    else if power ≥ 0 then nearest negative (digits * tenTo power.toNat) 1
    else nearest negative digits (tenTo (-power).toNat)

/-- The number nearest to an integer. -/
def ofInt (i : Int) : Binary64 := ofDecimal (decide (i < 0)) i.natAbs 0

/-- Whether the number differs from zero; what is no number counts as different. -/
def isNonzero : Binary64 → Bool
  | .finite _ m _ => m != 0
  | _ => true

/-- The integer nearest to a finite magnitude, a half going away from zero. -/
def roundedMagnitude (m : Nat) (e : Int) : Nat :=
  if e ≥ 0 then m * twoTo e.toNat
  else
    let d := twoTo (-e).toNat
    (2 * m + d) / (2 * d)

/-- The nearest integer within `0 ≤ i ≤ top`: what lies outside goes to the nearer end, and what
is no number to zero. -/
def saturate (top : Nat) : Binary64 → Nat
  | .nan => 0
  | .infinite negative => if negative then 0 else top
  | .finite negative m e => if negative then 0 else min (roundedMagnitude m e) top

end Binary64

end Conduit
