/-
  The shortest decimal text of a binary64 number.

  Every real number nearer to `x` than to its neighbours reads back as `x`; so does the midpoint
  between two neighbours if the significand of `x` is even.  Measured in quarter units in the last
  place, these numbers are the interval `lower ..= upper` around `4 * significand`.

  1. **Grid** — the multiples of `10 ^ q`.  The fewest digits are those of the coarsest grid with
     a point in the interval; of two points there the nearer one is taken, a tie goes up.
  2. **Text** — the digits are written out in full, with zeros up to the point where needed and
     never with an exponent.
-/
import StackArena.Binary64.Basic

namespace StackArena.Binary64

/-! ## The interval of a magnitude, in quarter units -/

/-- Quarter units up to the lower end.  Below a power of two the numbers lie twice as dense. -/
def lower (x : Magnitude) : Nat :=
  if x.significand = Nat.pow 2 52 ∧ -1074 < x.exponent then 4 * x.significand - 1
  else 4 * x.significand - 2

/-- Quarter units up to the upper end. -/
def upper (x : Magnitude) : Nat := 4 * x.significand + 2

/-- `n` quarter units against `c * 10 ^ q`, both as whole numbers over one denominator. -/
def scales (x : Magnitude) (q : Int) (n c : Nat) : Nat × Nat :=
  let e := x.exponent - 2
  (n * Nat.pow 2 e.toNat * Nat.pow 10 (-q).toNat, c * Nat.pow 10 q.toNat * Nat.pow 2 (-e).toNat)

/-- Whether `c * 10 ^ q` reads back as `x`. -/
def readsBack (x : Magnitude) (q : Int) (c : Nat) : Bool :=
  let low := scales x q (lower x) c
  let high := scales x q (upper x) c
  if x.significand % 2 = 0 then low.1 ≤ low.2 && high.2 ≤ high.1
  else low.1 < low.2 && high.2 < high.1

/-- The point of the grid `10 ^ q` that stands for `x`: one of the two around it. -/
def onGrid? (x : Magnitude) (q : Int) : Option Nat :=
  let (n, d) := scales x q (4 * x.significand) 1
  let below := n / d
  match readsBack x q below, readsBack x q (below + 1) with
  | true, true => some (if 2 * (n % d) < d then below else below + 1)
  | true, false => some below
  | false, true => some (below + 1)
  | false, false => none

/-! ## The coarsest grid -/

/-- No grid finer than this is ever needed: 17 digits of the smallest number end before it. -/
def finest : Int := -343

/-- The grids from `finest + n` downwards. -/
def coarsest? (x : Magnitude) : Nat → Option (Nat × Int)
  | 0 => none
  | n + 1 =>
    let q := finest + n
    match onGrid? x q with
    | some c => some (c, q)
    | none => coarsest? x n

/-- The digits of a magnitude above zero, and the power of ten that their last one counts. -/
def shortest (x : Magnitude) : Nat × Int := (coarsest? x 653).getD (0, 0)

/-! ## The text -/

/-- `c * 10 ^ q` written out. -/
def plain (c : Nat) (q : Int) : String :=
  let digits := toString c
  match q with
  | .ofNat zeros => digits ++ "".pushn '0' zeros
  | .negSucc k =>
    let places := k + 1
    let padded := "".pushn '0' (places + 1 - digits.length) ++ digits
    let whole := padded.length - places
    String.ofList (padded.toList.take whole) ++ "." ++ String.ofList (padded.toList.drop whole)

/-- **Display text** of a number. -/
def display (x : Binary64) : String :=
  match x.value with
  | .nan => "NaN"
  | .infinite negative => if negative then "-inf" else "inf"
  | .finite negative magnitude =>
    let text :=
      if magnitude.significand = 0 then "0"
      else
        let (c, q) := shortest magnitude
        plain c q
    if negative then "-" ++ text else text

end StackArena.Binary64
