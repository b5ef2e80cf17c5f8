/-
  Guards: scopes that unwind.

  A guard remembers where its stack stood when the scope was entered.  When the scope is left, on
  whatever way, the stack is unwound to that place; a guard that has been disarmed leaves it as it
  is.  Scopes nest, and the stack is reached through the innermost guard.

  `scope` runs a body as a scope.  The body has a state `ρ` of its own besides the stack.
-/
import StackArena.Stack.Allocate
import StackArena.Stack.Unwind

namespace StackArena

/-- `Guard`: the state of a scope. -/
structure Guard where
  /-- The position at which the scope was entered. -/
  marker : Marker
  /-- Whether leaving the scope unwinds. -/
  armed : Bool
deriving DecidableEq, Repr

namespace Guard

/-- A guard on a stack as it is. -/
def enter (s : Stack) : Guard := ⟨s.top, true⟩

/-- The guard lets go: what was allocated in the scope stays. -/
def disarm (g : Guard) : Guard := { g with armed := false }

/-- The stack is unwound to where the scope was entered; the guard stays as it is. -/
def unwind (p : Platform) (g : Guard) : Action Stack Unit := Stack.unwind p g.marker

/-- What happens when the scope is left. -/
def leave (p : Platform) (g : Guard) : Action Stack Unit :=
  if g.armed then g.unwind p else pure ()

/-- A body runs as a scope: with a guard on the stack, and with the guard's `leave` after it on
    every way out. -/
def scope {ρ α : Type} (p : Platform) (body : Action (Guard × Stack × ρ) α) :
    Action (Stack × ρ) α := fun ((s, r), h) =>
  let whole := Action.ensuring body do
    let (g, _) ← Action.self
    Action.onSecond (Action.onFirst (g.leave p))
  match whole ((enter s, s, r), h) with
  | .ok x ((_, s, r), h) => .ok x ((s, r), h)
  | .error f ((_, s, r), h) => .error f ((s, r), h)

end Guard

end StackArena
