/-
  Binary64 numbers, exactly.

  A number is given by its 64 bits.  `value` decodes them; a finite number is a sign and a
  `Magnitude`, the real number `significand * 2 ^ exponent`, with `significand < 2 ^ 53` and
  `exponent ≥ -1074`.  Arithmetic is done on magnitudes without error, and `nearest` brings a
  result back to the grid of binary64 numbers: to 53 bits, a tie to the even neighbour.

  `scaleUp` is the operation that the growth of a stack needs: a word times a number, rounded to
  the next whole number and cut to the range of words.
-/
import StackArena.Word

namespace StackArena

/-- `Magnitude`: the real number `significand * 2 ^ exponent`. -/
structure Magnitude where
  significand : Nat
  exponent : Int
deriving DecidableEq, Repr

namespace Magnitude

/-- A natural number as a magnitude. -/
def ofNat (n : Nat) : Magnitude := ⟨n, 0⟩

/-- The exact product. -/
def mul (x y : Magnitude) : Magnitude :=
  ⟨x.significand * y.significand, x.exponent + y.exponent⟩

/-- The low bits that `nearest` has to drop: all beyond 53, and all below `2 ^ (-1074)`. -/
def excess (x : Magnitude) : Nat :=
  max (x.significand.log2 + 1 - 53) (-1074 - x.exponent).toNat

/-- `n / 2 ^ k` rounded to the nearest whole number, a tie to the even one. -/
def shiftNearest (n k : Nat) : Nat :=
  let unit := Nat.pow 2 k
  let quotient := n / unit
  let rest := n % unit
  if unit < 2 * rest ∨ (2 * rest = unit ∧ quotient % 2 = 1) then quotient + 1 else quotient

/-- The nearest number on the grid of binary64, with no upper end: what lies beyond the largest
    finite number lies beyond every word as well, and `scaleUp` treats both alike. -/
def nearest (x : Magnitude) : Magnitude :=
  ⟨shiftNearest x.significand x.excess, x.exponent + x.excess⟩

/-- The least whole number that is not below the magnitude. -/
def ceil (x : Magnitude) : Nat :=
  match x.exponent with
  | .ofNat e => x.significand * Nat.pow 2 e
  | .negSucc e => (x.significand + (Nat.pow 2 (e + 1) - 1)) / Nat.pow 2 (e + 1)

end Magnitude

/-- `Binary64`: a floating-point number by its bits. -/
structure Binary64 where
  bits : UInt64
deriving DecidableEq, Repr

namespace Binary64

/-- What a bit pattern stands for. -/
inductive Value where
  | nan
  | infinite (negative : Bool)
  | finite (negative : Bool) (magnitude : Magnitude)
deriving DecidableEq, Repr

/-- The sign bit. -/
def isNegative (x : Binary64) : Bool := Nat.pow 2 63 ≤ x.bits.toNat

/-- The eleven exponent bits. -/
def exponentField (x : Binary64) : Nat := x.bits.toNat / Nat.pow 2 52 % Nat.pow 2 11

/-- The 52 fraction bits. -/
def fraction (x : Binary64) : Nat := x.bits.toNat % Nat.pow 2 52

/-- Decoding.  An exponent field of all ones is an infinity or no number, one of all zeros has
    no hidden bit. -/
def value (x : Binary64) : Value :=
  if x.exponentField = 2047 then
    if x.fraction = 0 then .infinite x.isNegative else .nan
  else if x.exponentField = 0 then .finite x.isNegative ⟨x.fraction, -1074⟩
  else .finite x.isNegative ⟨x.fraction + Nat.pow 2 52, (x.exponentField : Int) - 1075⟩

/-- The number one. -/
def one : Binary64 := ⟨0x3ff0000000000000⟩

/-- Whether the pattern stands for no number. -/
def isNaN (x : Binary64) : Bool := x.value == .nan

/-- A zero of either sign. -/
def isZero (x : Binary64) : Bool := x.exponentField == 0 && x.fraction == 0

/-- Finite and above zero. -/
def isPositive (x : Binary64) : Bool :=
  match x.value with
  | .finite false magnitude => magnitude.significand != 0
  | _ => false

/-- Numeric equality: the zeros are equal, and what is no number equals nothing. -/
def numEq (x y : Binary64) : Bool :=
  !x.isNaN && !y.isNaN && (x == y || (x.isZero && y.isZero))

/-- `total` times the factor in binary64 arithmetic, rounded up to a whole number and cut to the
    range of words.  What is no number counts as 0, and so does everything below 0. -/
def scaleUp (factor : Binary64) (total : Nat) : Nat :=
  match factor.value with
  | .nan => 0
  | .infinite negative => if negative || total == 0 then 0 else Word.max
  | .finite negative magnitude =>
    if negative then 0
    else min (((Magnitude.ofNat total).nearest.mul magnitude).nearest.ceil) Word.max

end Binary64

example : Binary64.one.scaleUp 4096 = 4096 := by decide
example : Binary64.one.scaleUp (2 ^ 53 + 1) = 2 ^ 53 := by decide   -- the total itself is rounded
example : (Binary64.mk 0x3fe0000000000000).scaleUp 5 = 3 := by decide   -- 2.5, rounded up

end StackArena
