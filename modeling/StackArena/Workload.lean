/-
  Request mixes for measurements.

  Both mixes are fixed sequences, so that runs can be compared: `small` has sizes from 1 to 64 and
  alignments from 1 to 16, `mixed` replaces every sixteenth request by one that does not fit in a
  small block, so that a stack keeps crossing block boundaries.
-/
import StackArena.Layout
import StackArena.Config

namespace StackArena.Workload

/-- The `i`-th small request. -/
def smallAt (i : Nat) : Request := ⟨1 + i * 37 % 64, Nat.pow 2 (i % 5)⟩

/-- The `i`-th request of the mix with large ones. -/
def mixedAt (i : Nat) : Request := if i % 16 = 15 then ⟨8 * 1024, 16⟩ else smallAt i

/-- The first `count` small requests. -/
def small (count : Nat) : List Request := (List.range count).map smallAt

/-- The first `count` requests of the mix with large ones. -/
def mixed (count : Nat) : List Request := (List.range count).map mixedAt

/-- The stack that measurements run on: the default one, with no bytes overwritten. -/
def stackConfig (b : Build) : Config := { Config.sized b 4096 with fill := false }

end StackArena.Workload
