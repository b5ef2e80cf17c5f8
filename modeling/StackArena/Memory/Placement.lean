/-
  Where memory is placed.

  A simple heap hands out rising addresses and never an address twice.  What it makes next starts
  above everything made so far, with a gap of at least `gap` bytes, so that no two pieces touch.

  Regions of blocks start at a multiple of `page`, shifted by a skew that depends on the number of
  the region; the skews show what alignments above `Alignment.maxNatural` do.  Chunks start at a
  multiple of their alignment.  Requests beyond `largest` bytes, and ones that would leave the
  address space, are not served.
-/
import StackArena.Memory.Basic

namespace StackArena.Placement

/-- The least distance between two pieces of memory. -/
def gap : Nat := 512

/-- Regions start at a fixed distance from a multiple of this. -/
def page : Nat := Nat.pow 2 16

/-- The largest request that is served. -/
def largest : Nat := Nat.pow 2 30

/-- Addresses lie below this. -/
def space : Nat := Nat.pow 2 47

/-- The next multiple of `a` above all memory and the gap. -/
def next (o : Outline) (a : Nat) : Nat := (o.limit + gap + (a - 1)) / a * a

/-- The base, if a piece of that layout fits there. -/
def fitting? (base : Nat) (l : Layout) : Option Nat :=
  if l.size ≤ largest ∧ base + l.size < space then some base else none

/-- The base of the next region, shifted by the skew that its number selects. -/
def region (skews : List Nat) (o : Outline) (l : Layout) : Option Nat :=
  let skew := skews[o.regions.length % skews.length]?.getD 0
  fitting? (next o page + skew) l

/-- The base of the next chunk. -/
def chunk (o : Outline) (l : Layout) : Option Nat :=
  fitting? (next o (max l.alignment Alignment.maxNatural)) l

end StackArena.Placement
