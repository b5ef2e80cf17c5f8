/-
  Unwinding a stack.

  `unwind m` releases everything that was allocated since `m` was taken.  The blocks above the one
  that `m` names go to the cache or are freed; then the cursor of that block is moved back.

  A marker can be wrong in five ways, which `objection?` looks for in this order: it is of another
  stack, no block is active at its depth, the block there is another one, the cursor of that block
  stands before its offset, or it counts more outstanding bytes than there are.  A debug build
  stops on an objection; a release build goes to the nearest position that exists.
-/
import StackArena.Stack.Basic

namespace StackArena.Stack

/-! ## What is wrong with a marker -/

/-- What is wrong with a marker as a position inside the block at its depth. -/
def blockObjection? (m : Marker) (blk : Block) : Option Fault :=
  if m.serial ≠ blk.serial then some (.staleMarker m.serial blk.serial)
  else if blk.cursor < m.offset then some (.unwindForward m.offset blk.cursor)
  else none

/-- The first thing that is wrong with a marker. -/
def objection? (s : Stack) (m : Marker) : Option Fault :=
  if m.stack ≠ s.id then some (.foreignMarker m.stack s.id)
  else match s.blockAt? m.depth with
    | none => some (.depthOutside m.depth s.blockCount)
    | some blk =>
      match blockObjection? m blk with
      | some fault => some fault
      | none =>
        if s.outstanding < m.outstanding then
          some (.outstandingForward m.outstanding s.outstanding)
        else none

/-- A debug build stops on an objection. -/
def checkMarker (b : Build) (s : Stack) (m : Marker) : Except Fault Unit :=
  match b, s.objection? m with
  | .debug, some fault => .error fault
  | _, _ => .ok ()

/-! ## Releasing blocks -/

/-- The current block is released and the one below it becomes current.  The oldest block stays. -/
def releaseCurrent (p : Platform) : Action Stack Unit := do
  let s ← Action.self
  match s.below with
  | [] => pure ()
  | next :: below =>
    let released := s.current
    let capacity ← p.build.sub s.capacity released.capacity
    Action.setSelf { s with current := next, below, capacity }
    if s.fill then released.fill 0 released.cursor Config.freedPattern
    match s.retention with
    | .release => released.free
    | .cache =>
      let s ← Action.self
      Action.setSelf { s with cache := released :: s.cache }

/-- So many blocks are released. -/
def releaseBlocks (p : Platform) : Nat → Action Stack Unit
  | 0 => pure ()
  | count + 1 => do
    releaseCurrent p
    releaseBlocks p count

/-! ## Unwinding -/

/-- The number of blocks that are active after unwinding to a depth. -/
def keptDepth (s : Stack) (depth : Nat) : Nat := max 1 (min depth s.blockCount)

/-- The current block is taken back to an offset, or stays where it is if it stands before it. -/
def rewindCurrent (p : Platform) (offset : Nat) : Action Stack Unit := do
  let s ← Action.self
  let offset := min offset s.current.cursor
  if s.fill then
    let length ← p.build.sub s.current.cursor offset
    s.current.fill offset length Config.freedPattern
  let current ← s.current.rewind p.build offset
  Action.setSelf { s with current }

/-- Everything allocated since a marker was taken is released. -/
def unwind (p : Platform) (m : Marker) : Action Stack Unit := do
  let s ← Action.self
  s.checkMarker p.build m
  let kept := s.keptDepth m.depth
  let released := s.blockCount - kept
  releaseBlocks p released
  if 0 < released then Host.emit (.unwound s.id released kept)
  rewindCurrent p m.offset
  let s ← Action.self
  Action.setSelf { s with outstanding := min m.outstanding s.outstanding }

/-- Everything is released. -/
def unwindAll (p : Platform) : Action Stack Unit := do
  let s ← Action.self
  unwind p s.bottom

end StackArena.Stack
