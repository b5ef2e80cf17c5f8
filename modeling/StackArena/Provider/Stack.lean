/-
  A stack as a provider.

  The form that may be declined never makes the stack grow: it asks the current block only.
  Giving back does nothing, since a stack releases by unwinding; what it can say is whether an
  address points into one of its active blocks.
-/
import StackArena.Provider.Basic
import StackArena.Stack.Allocate

namespace StackArena.Stack

/-- A request to the current block, with a cause where it is declined. -/
def offer (p : Platform) (r : Request) : Action Stack (Except AllocError Nat) := do
  if !Alignment.isValid r.alignment then return .error (.invalidAlignment r.alignment)
  match ← tryAllocate p r with
  | some address => return .ok address
  | none =>
    let s ← Action.self
    let available ← s.capacityLeft p.build
    return .error (.exhausted r.size available)

/-- A stack as a provider. -/
def provider (p : Platform) : Provider Stack where
  build := p.build
  allocate r := allocate p r
  tryAllocate r := offer p r
  deallocate _ _ := pure ()
  tryDeallocate address _ := do
    let s ← Action.self
    s.owns p.build address

end StackArena.Stack
