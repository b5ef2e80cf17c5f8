/-
  The stack: a list of blocks that grows at one end.

  Requests are served by the current block only.  When it is full a further block is put on top of
  it; unwinding to a marker takes blocks off again.  Blocks that have been taken off wait in a
  cache, if the configuration says so.

    below (newest first)   current          cache (most recently released first)
      [ B1 ][ B0 ]          [ B2 ]            [ C1 ][ C0 ]

  The stack keeps books about itself instead of recounting: `capacity` is the sum of the
  capacities of the active blocks, and `outstanding` the number of bytes reserved in them.
-/
import StackArena.Block.Basic
import StackArena.Config
import StackArena.Marker

namespace StackArena

/-- `Stack`: the state of a stack.  There is always a current block. -/
structure Stack where
  id : AllocatorId
  /-- The block that serves requests. -/
  current : Block
  /-- The other active blocks, newest first. -/
  below : List Block
  /-- Released blocks kept for reuse, most recently released first. -/
  cache : List Block
  growth : Growth
  retention : Retention
  /-- Whether bytes are overwritten when they are handed out and when they are released. -/
  fill : Bool
  /-- The sum of the capacities of the active blocks. -/
  capacity : Nat
  /-- Bytes reserved and not unwound yet. -/
  outstanding : Nat
  /-- The serial of the next block. -/
  nextSerial : Nat
  /-- The position right after construction. -/
  bottom : Marker
deriving Repr

namespace Stack

/-- The kind name under which stacks are reported. -/
def kindName : String := "memstack::MemoryStack"

/-! ## Inspection -/

/-- The active blocks, newest first. -/
def active (s : Stack) : List Block := s.current :: s.below

/-- The number of active blocks. -/
def blockCount (s : Stack) : Nat := s.below.length + 1

/-- The active block at a depth, counted from 1 for the oldest. -/
def blockAt? (s : Stack) (depth : Nat) : Option Block :=
  if depth = 0 then none else s.active.reverse[depth - 1]?

/-- The current position. -/
def top (s : Stack) : Marker where
  stack := s.id
  depth := s.blockCount
  serial := s.current.serial
  offset := s.current.cursor
  outstanding := s.outstanding

/-- Free bytes of the current block. -/
def capacityLeft (b : Build) (s : Stack) : Except Fault Nat := s.current.remaining b

/-- The capacity that the next new block would have. -/
def nextCapacity (s : Stack) : Nat := s.growth.nextCapacity s.capacity 0

/-- Whether an address points into an active block, or at the end of one. -/
def owns (b : Build) (s : Stack) (address : Nat) : Except Fault Bool :=
  s.active.reverse.anyM fun blk => blk.contains b address

/-- What reports say about the stack. -/
def info (s : Stack) : AllocatorInfo := ⟨kindName, s.id⟩

/-- **Debug text** of a stack: its active blocks in full, the cached ones by number. -/
def debug (s : Stack) : String :=
  let blocks := ", ".intercalate (s.active.reverse.map Block.debug)
  s!"MemoryStack \x7b id: {s.id.debug}, blocks: [{blocks}], cached: {s.cache.length}, "
    ++ s!"capacity: {s.capacity}, outstanding: {s.outstanding} \x7d"

/-! ## From construction to the end -/

/-- A stack is made from a configuration that has been validated.  Its identity is taken before
    its first block is made. -/
def make (p : Platform) (c : Config) : HostAction Stack := do
  let id ← Host.freshId
  let first ← Block.make p c.initialBlock 0
  return {
    id
    current := first
    below := []
    cache := []
    growth := c.growth
    retention := c.retention
    fill := c.fill
    capacity := first.capacity
    outstanding := 0
    nextSerial := 1
    bottom := ⟨id, 1, first.serial, 0, 0⟩ }

/-- A stack is made from any configuration, or the configuration is refused. -/
def ofConfig (p : Platform) (c : Config) : HostAction (Except ConfigError Stack) :=
  match c.validate with
  | .error e => return .error e
  | .ok () => return .ok (← make p c)

/-- Outstanding bytes, if there are any, are reported to the leak handler; the result is their
    number. -/
def reportLeaks (p : Platform) : Action Stack Nat := do
  let s ← Action.self
  if s.outstanding ≠ 0 then Host.reportLeak p s.info s.outstanding
  return s.outstanding

/-- Blocks are freed one after the other. -/
def freeBlocks : List Block → HostAction Unit
  | [] => pure ()
  | blk :: rest => do
    blk.free
    freeBlocks rest

/-- The stack comes to its end: leaks are reported, and whatever the handler does, all blocks are
    freed. -/
def discard (p : Platform) : Action Stack Unit :=
  Action.ensuring
    (do let _ ← reportLeaks p)
    (do
      let s ← Action.self
      freeBlocks (s.active.reverse ++ s.cache.reverse))

/-- The cached blocks are freed. -/
def shrink : Action Stack Unit := do
  let s ← Action.self
  if !s.cache.isEmpty then Host.emit (.shrunk s.id s.cache.length)
  Action.setSelf { s with cache := [] }
  freeBlocks s.cache.reverse

end Stack

end StackArena
