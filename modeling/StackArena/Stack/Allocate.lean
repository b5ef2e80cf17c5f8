/-
  Allocating from a stack.

  1. **Bump** — the current block serves the request, if it has room.  The reserved bytes are added
     to the books, and the bytes handed out are overwritten if the configuration says so.
  2. **Grow** — otherwise a block with room for the request on any base is put on top: the most
     recently released one in the cache that is large enough, or else a new one.
  3. **Bump again** — the block on top serves the request.

  `tryAllocate` stops after the first step, `allocate` takes all three.
-/
import StackArena.Stack.Basic

namespace StackArena.Stack

/-! ## Bump -/

/-- The books and the bytes of an allocation that the current block has just made. -/
def commit (p : Platform) (a : Allocation) (size : Nat) : Action Stack Nat := do
  let s ← Action.self
  let outstanding ← p.build.add s.outstanding a.reserved
  Action.setSelf { s with outstanding }
  if s.fill then
    let start ← p.build.sub s.current.cursor size
    s.current.fill start size Config.newPattern
  return a.address

/-- The current block serves a request, if it has room. -/
def bump (p : Platform) (r : Request) : Action Stack (Option Nat) := do
  let s ← Action.self
  match ← s.current.tryAllocate p.build r with
  | none => return none
  | some (a, blk) =>
    Action.setSelf { s with current := blk }
    return some (← commit p a r.size)

/-! ## Grow -/

/-- The most recently released block of a cache with room for `required` bytes, and the others in
    their order. -/
def takeCached? (required : Nat) : List Block → Option (Block × List Block)
  | [] => none
  | blk :: rest =>
    if required ≤ blk.capacity then some (blk, rest)
    else (takeCached? required rest).map fun (found, others) => (found, blk :: others)

/-- The block to put on top: a cached one or a new one. -/
def obtain (p : Platform) (required serial : Nat) : Action Stack Block := do
  let s ← Action.self
  match takeCached? required s.cache with
  | some (blk, others) =>
    Action.setSelf { s with cache := others }
    return blk.recycle serial
  | none =>
    let capacity := s.growth.nextCapacity s.capacity required
    Host.emit (.growing s.id capacity s.capacity required)
    Block.make p capacity serial

/-- A block with room for `required` bytes is put on top.  The serial counts as given out even if
    no block can be had. -/
def grow (p : Platform) (required : Nat) : Action Stack Unit := do
  let s ← Action.self
  let nextSerial ← p.build.add s.nextSerial 1
  Action.setSelf { s with nextSerial }
  let blk ← obtain p required s.nextSerial
  let s ← Action.self
  let capacity ← p.build.add s.capacity blk.capacity
  Action.setSelf { s with current := blk, below := s.active, capacity }

/-! ## The two forms of a request -/

/-- A request is served by the current block, or not at all. -/
def tryAllocate (p : Platform) (r : Request) : Action Stack (Option Nat) := do
  p.build.require (Alignment.isValid r.alignment) (.badAlignment r.alignment)
  bump p r

/-- A request is served, by a further block if need be. -/
def allocate (p : Platform) (r : Request) : Action Stack Nat := do
  p.build.require (Alignment.isValid r.alignment) (.badAlignment r.alignment)
  match ← bump p r with
  | some address => return address
  | none =>
    match r.room? with
    | none => throw (.requestOverflow r.size r.alignment)
    | some required =>
      grow p required
      match ← bump p r with
      | some address => return address
      | none => throw .freshBlockFull

/-- Requests are served one after the other. -/
def allocateAll (p : Platform) : List Request → Action Stack (List Nat)
  | [] => return []
  | r :: rest => do
    let address ← allocate p r
    return address :: (← allocateAll p rest)

end StackArena.Stack
