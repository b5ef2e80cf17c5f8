/-
  How large the next block of a stack is.

  A policy is a smallest block and a factor.  The next block has room for the request at hand, is
  never below the smallest block, and is at least `factor` times what the stack owns already, so
  that the number of blocks stays logarithmic in the volume.  Capacities are multiples of
  `Alignment.maxNatural`; where the next multiple is no word, the largest multiple is taken.
-/
import StackArena.Alignment
import StackArena.Binary64.Basic

namespace StackArena

/-- `Growth`: the policy that sizes the blocks of a stack. -/
structure Growth where
  minBlock : Nat
  factor : Binary64
deriving Repr

namespace Growth

/-- The largest capacity that a policy asks for. -/
def largest : Nat := Word.count - Alignment.maxNatural

/-- Capacity of the next block of a stack that owns `total` bytes, for a request that needs
    `requested` bytes. -/
def nextCapacity (policy : Growth) (total requested : Nat) : Nat :=
  let wanted := max (max policy.minBlock requested) (policy.factor.scaleUp total)
  (Alignment.roundUp? wanted Alignment.maxNatural).getD largest

/-- The capacities for a series of requests, each added to the total before the next one. -/
def series (policy : Growth) (total : Nat) : List Nat → List Nat
  | [] => []
  | requested :: rest =>
    let capacity := policy.nextCapacity total requested
    capacity :: policy.series (min (total + capacity) Word.max) rest

/-- Equality of policies; a factor that is no number makes a policy equal to none. -/
def numEq (p q : Growth) : Bool := p.minBlock == q.minBlock && p.factor.numEq q.factor

end Growth

example : (Growth.mk 64 .one).series 64 [1, 1, 1] = [64, 128, 256] := by decide

end StackArena
