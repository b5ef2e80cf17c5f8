/-
  Alignment arithmetic on words.

  An alignment is a power of two.  Then `a - 1` is the mask of the low bits, `v &&& (a - 1)` is
  the remainder of `v`, and rounding up is a matter of masks and one addition:

    padding v a   bytes to add to `v` to reach a multiple of `a`
    roundUp? v a  the next multiple of `a`, if `v + (a - 1)` is still a word

  The plain functions are about words, and compute with any word in place of an alignment: the mask
  of 0 has all bits.  The ones that take a `Build` first check the alignment, as a debug build does.
-/
import StackArena.Word

namespace StackArena.Alignment

/-- The largest alignment that any object needs by itself. -/
def maxNatural : Nat := 16

/-- A valid alignment has exactly one bit set. -/
def isValid (a : Nat) : Bool := a != 0 && a &&& (a - 1) == 0

/-- The alignment that an object of `size` bytes implies: the largest power of two that is not
    above the size, never above `maxNatural`; 1 for an empty object. -/
def natural (size : Nat) : Nat :=
  if maxNatural ≤ size then maxNatural else if size = 0 then 1 else Nat.pow 2 size.log2

/-- The mask of the bits below an alignment. -/
def mask (a : Nat) : Nat := Word.wrapSub a 1

/-- Bytes of padding that bring `address` to a multiple of `a`. -/
def padding (address a : Nat) : Nat :=
  let misaligned := address &&& mask a
  if misaligned = 0 then 0 else Word.wrapSub a misaligned

/-- The next multiple of `a` from `value` on, by clearing the low bits of `value + (a - 1)`;
    `none` if that sum is no word. -/
def roundUp? (value a : Nat) : Option Nat :=
  (Word.add? value (mask a)).map (· &&& Word.complement (mask a))

/-! ## With the checks of a build -/

/-- Whether `address` is a multiple of `a`. -/
def isAligned (b : Build) (address a : Nat) : Except Fault Bool := do
  b.require (isValid a) (.badAlignment a)
  let misaligned ← Word.rem address a
  return misaligned == 0

/-- `padding`, with the alignment checked. -/
def offset (b : Build) (address a : Nat) : Except Fault Nat := do
  b.require (isValid a) .alignmentAssertion
  return padding address a

/-- `roundUp?`, with the alignment checked. -/
def roundUp (b : Build) (value a : Nat) : Except Fault (Option Nat) := do
  b.require (isValid a) .alignmentAssertion
  return roundUp? value a

end StackArena.Alignment
