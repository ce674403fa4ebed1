/-
Numerals: whole numbers in decimal digits, with an optional sign and nothing else around them. Beside
them stand the powers of two and of ten, and the ranges of integers of 64 bits.
-/
namespace Conduit.Numeral

/-- A power of two. -/
def twoTo (n : Nat) : Nat := Nat.pow 2 n

/-- A power of ten. -/
def tenTo (n : Nat) : Nat := Nat.pow 10 n

/-- The least integer of 64 bits with a sign. -/
def leastSigned : Int := -9223372036854775808

/-- The greatest integer of 64 bits with a sign. -/
def greatestSigned : Int := 9223372036854775807

/-- The greatest integer of 64 bits without a sign. -/
def greatestUnsigned : Nat := 18446744073709551615

/-- Whether an integer fits 64 bits with a sign. -/
def fitsSigned (i : Int) : Bool := leastSigned ≤ i && i ≤ greatestSigned

/-- The value of a run of decimal digits; other characters, and no digit at all, have none. -/
def digits? (cs : List Char) : Option Nat :=
  if cs.isEmpty || !cs.all Char.isDigit then none
  else some (cs.foldl (fun n c => 10 * n + (c.toNat - '0'.toNat)) 0)

/-- The value of digits that a plus sign may precede. -/
def natural? : List Char → Option Nat
  | '+' :: cs => digits? cs
  | cs => digits? cs

/-- The value of digits that a sign may precede. -/
def integer? : List Char → Option Int
  | '-' :: cs => (digits? cs).map fun n => -(n : Int)
  | cs => (natural? cs).map fun n => (n : Int)

end Conduit.Numeral
