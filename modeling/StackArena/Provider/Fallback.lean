/-
  Two providers as one: the first serves what it can, the second the rest.

  The first is asked through the forms that may be declined.  Memory that is given back is offered
  to the first, which says whether it is its own, and goes to the second if it is not.  The
  composite can itself be asked both ways, so chains and trees of any depth are providers.
-/
import StackArena.Provider.Basic

namespace StackArena.Provider

variable {σ τ : Type}

/-- The first provider, and where it declines, the second. -/
def fallback (first : Provider σ) (second : Provider τ) : Provider (σ × τ) where
  build := first.build
  allocate r := do
    match ← Action.onFirst (first.tryAllocate r) with
    | .ok address => return address
    | .error _ => Action.onSecond (second.allocate r)
  tryAllocate r := do
    match ← Action.onFirst (first.tryAllocate r) with
    | .ok address => return .ok address
    | .error _ => Action.onSecond (second.tryAllocate r)
  deallocate address r := do
    if !(← Action.onFirst (first.tryDeallocate address r)) then
      Action.onSecond (second.deallocate address r)
  tryDeallocate address r := do
    if ← Action.onFirst (first.tryDeallocate address r) then return true
    else Action.onSecond (second.tryDeallocate address r)
  limits := fun (s, t) => (first.limits s).sup (second.limits t)
  allocateArray count element := do
    match ← Action.onFirst (first.tryAllocateArray count element) with
    | .ok address => return address
    | .error _ => Action.onSecond (second.allocateArray count element)
  tryAllocateArray count element := do
    match ← Action.onFirst (first.tryAllocateArray count element) with
    | .ok address => return .ok address
    | .error _ => Action.onSecond (second.tryAllocateArray count element)
  deallocateArray address count element := do
    if !(← Action.onFirst (first.tryDeallocateArray address count element)) then
      Action.onSecond (second.deallocateArray address count element)

end StackArena.Provider
