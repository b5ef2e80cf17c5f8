/-
  Trees of providers.

  A `Tree` is the shape of an allocator: stacks, heaps and budgets at the leaves, and "first, else
  second" at the inner nodes.  The shape determines the state (`Tree.State`) and the operations
  (`Tree.provider`), so whatever holds of the leaves and is kept by `Provider.fallback` holds of
  every tree.

  A `Recipe` says how to make an allocator; an `Allocator` is a shape with a state of that shape.
-/
import StackArena.Guard
import StackArena.Provider.Budget
import StackArena.Provider.Fallback
import StackArena.Provider.Heap
import StackArena.Provider.Stack

namespace StackArena

/-- `Tree`: the shape of an allocator. -/
inductive Tree where
  | stack
  | heap
  | budget
  | fallback (first second : Tree)
deriving DecidableEq, Repr

/-- One of the two sides of a fallback. -/
inductive Side where
  | first
  | second
deriving DecidableEq, Repr

namespace Tree

/-- The state of an allocator of a shape. -/
def State : Tree → Type
  | stack => Stack
  | heap => Unit
  | budget => Budget
  | fallback first second => first.State × second.State

/-- The operations of an allocator of a shape. -/
def provider (p : Platform) : (t : Tree) → Provider t.State
  | stack => Stack.provider p
  | heap => Heap.provider p
  | budget => Budget.provider p
  | fallback first second => (first.provider p).fallback (second.provider p)

/-- Whether there is a heap at a leaf. -/
def hasHeap : Tree → Bool
  | stack => false
  | heap => true
  | budget => false
  | fallback first second => first.hasHeap || second.hasHeap

/-- The leaf that would take back an address: the first one that calls it its own.  A heap takes
    every address. -/
def taker? (b : Build) : (t : Tree) → t.State → Nat → Except Fault (Option Tree)
  | stack, s, address => do
    let own ← Stack.owns b s address
    return if own then some stack else none
  | heap, _, _ => return some heap
  | budget, s, address => return if Budget.owns s address then some budget else none
  | fallback first second, (s, t), address => do
    match ← first.taker? b s address with
    | some leaf => return some leaf
    | none => second.taker? b t address

/-- **Debug text** of an allocator. -/
def debug : (t : Tree) → t.State → String
  | stack, s => Stack.debug s
  | heap, _ => Heap.debug
  | budget, s => Budget.debug s
  | fallback first second, (s, t) =>
    s!"FallbackAllocator \x7b default: {first.debug s}, fallback: {second.debug t} \x7d"

/-- An allocator comes to its end, first side first; a fault on the first side does not keep the
    second from its end. -/
def discard (p : Platform) : (t : Tree) → Action t.State Unit
  | stack => Stack.discard p
  | heap => pure ()
  | budget => Budget.discard
  | fallback first second =>
    Action.ensuring (Action.onFirst (first.discard p)) (Action.onSecond (second.discard p))

/-! ## Parts -/

/-- A part of an allocator of shape `t`: its shape, and the way into the state. -/
structure Part (t : Tree) where
  shape : Tree
  get : t.State → shape.State
  put : shape.State → t.State → t.State

/-- The part that a path leads to. -/
def part? : (t : Tree) → List Side → Option (Part t)
  | t, [] => some ⟨t, id, fun s _ => s⟩
  | fallback first _, .first :: path => do
    let q ← first.part? path
    return ⟨q.shape, fun s => q.get s.1, fun x s => (q.put x s.1, s.2)⟩
  | fallback _ second, .second :: path => do
    let q ← second.part? path
    return ⟨q.shape, fun s => q.get s.2, fun x s => (s.1, q.put x s.2)⟩
  | _, _ => none

end Tree

/-! ## Making allocators -/

/-- `Recipe`: how to make an allocator. -/
inductive Recipe where
  | stack (c : Config)
  | heap
  | budget (capacity : Nat) (limits : Limits) (test : FitTest := .compares)
  | fallback (first second : Recipe)
deriving Repr

namespace Recipe

/-- The shape of what a recipe makes. -/
def tree : Recipe → Tree
  | stack _ => .stack
  | heap => .heap
  | budget .. => .budget
  | fallback first second => .fallback first.tree second.tree

/-- A recipe is followed, first side first.  If the second side cannot be made, the first is
    discarded again. -/
def make (p : Platform) : (r : Recipe) → HostAction (Except ConfigError r.tree.State)
  | stack c => Stack.ofConfig p c
  | heap => return .ok ()
  | budget capacity limits test => return .ok (← Budget.make p capacity limits test)
  | fallback first second => do
    match ← first.make p with
    | .error e => return .error e
    | .ok s =>
      match ← Action.attempt (second.make p) with
      | .ok (.ok t) => return .ok (s, t)
      | .ok (.error e) =>
        Action.withState s (first.tree.discard p)
        return .error e
      | .error fault =>
        Action.withState s (first.tree.discard p)
        throw fault

end Recipe

/-- `Allocator`: a shape and a state of that shape. -/
structure Allocator where
  tree : Tree
  state : tree.State

end StackArena
