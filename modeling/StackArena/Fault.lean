/-
  What stops an operation that has no answer of its own.

  Three families, told apart by who is at fault and by what can still be done:

  1. **Broken contracts** — the caller asked for something the operation excludes (an alignment
     that is not a power of two, a marker of another stack).  Some of them are only looked for in
     a debug build.
  2. **Internal checks** — bounds and word arithmetic that a sound allocator never trips.
  3. **Fatal ends** — the heap is out of memory, or a second fault arises while a first one is
     being handled.  Nothing can catch these.

  A fault is a cause; its wording is in the one function `Fault.message`.
-/
import StackArena.AllocError
import StackArena.Identity

namespace StackArena

/-- The word operations whose result may not fit. -/
inductive WordOp where
  | add
  | subtract
  | multiply
deriving DecidableEq, Repr

/-- The verb in the text of a fault. -/
def WordOp.verb : WordOp → String
  | add => "add"
  | subtract => "subtract"
  | multiply => "multiply"

/-- `Fault`: the causes for which an operation stops without an answer. -/
inductive Fault where
  /-- An alignment that is not a power of two was asked for. -/
  | badAlignment (alignment : Nat)
  /-- An alignment that is not a power of two reached the rounding arithmetic. -/
  | alignmentAssertion
  /-- The result of a word operation does not fit in a word. -/
  | overflow (op : WordOp)
  /-- A remainder by 0 was asked for. -/
  | zeroDivisor
  /-- A block of no bytes was asked for. -/
  | emptyBlock
  /-- A block larger than any object may be was asked for. -/
  | blockTooLarge (capacity : Nat)
  /-- A request and its alignment slack together do not fit in a word. -/
  | requestOverflow (size alignment : Nat)
  /-- A block made for a request does not hold it. -/
  | freshBlockFull
  /-- An offset lies outside its region. -/
  | offsetOutside (offset : Nat)
  /-- An index lies outside a buffer. -/
  | indexOutside (length index : Nat)
  /-- A range to be overwritten lies outside its region. -/
  | fillOutside (offset length : Nat)
  /-- A block was told to rewind to a place ahead of its cursor. -/
  | rewindForward (offset cursor : Nat)
  /-- A marker was given to a stack that did not make it. -/
  | foreignMarker (marker stack : AllocatorId)
  /-- A marker names a depth at which the stack has no block. -/
  | depthOutside (depth active : Nat)
  /-- A marker names a block that has been released since. -/
  | staleMarker (marker block : Nat)
  /-- A marker lies ahead of the cursor of its block. -/
  | unwindForward (offset used : Nat)
  /-- A marker counts more outstanding bytes than there are. -/
  | outstandingForward (marker stack : Nat)
  /-- A request without a fallible form was declined. -/
  | declined (cause : AllocError)
  /-- The heap was asked for a layout that it rejects. -/
  | heapRejected (cause : AllocError)
  /-- The heap was given memory back with a layout that it rejects. -/
  | layoutMismatch (size alignment : Nat)
  /-- A client's code stopped by itself. -/
  | raised (text : String)
  /-- Leak handlers kept reporting to one another. -/
  | endlessReport
  /-- The heap could not serve a request that may not fail. -/
  | heapExhausted (size alignment : Nat)
  /-- A second fault arose while a first one was being handled. -/
  | doubleFault (first second : Fault)
deriving Repr

namespace Fault

/-- A fatal fault ends the program; every other one can be caught. -/
def isFatal : Fault → Bool
  | endlessReport | heapExhausted .. | doubleFault .. => true
  | _ => false

/-- The text of a failed comparison: what should have been equal, and the two sides. -/
def mismatch (what left right : String) : String :=
  s!"assertion \x60left == right\x60 failed: {what}\n  left: {left}\n right: {right}"

/-- **Message** of a fault. -/
def message : Fault → String
  | badAlignment alignment => s!"invalid alignment {alignment}"
  | alignmentAssertion => "assertion failed: is_valid_alignment(alignment)"
  | overflow op => s!"attempt to {op.verb} with overflow"
  | zeroDivisor => "attempt to calculate the remainder with a divisor of zero"
  | emptyBlock => "block capacity must be non-zero"
  | blockTooLarge capacity => s!"block capacity {capacity} exceeds the address space"
  | requestOverflow size alignment =>
    s!"allocation of {size} bytes at alignment {alignment} overflows"
  | freshBlockFull => "fresh block is sized for the request"
  | offsetOutside offset => s!"offset {offset} out of bounds"
  | indexOutside length index =>
    s!"index out of bounds: the len is {length} but the index is {index}"
  | fillOutside offset length => s!"fill range {offset}+{length} out of bounds"
  | rewindForward offset cursor => s!"cannot rewind block forward ({offset} > {cursor})"
  | foreignMarker marker stack =>
    mismatch "marker belongs to a different stack" marker.debug stack.debug
  | depthOutside depth active =>
    s!"marker refers to a released block (depth {depth}, {active} active)"
  | staleMarker marker block =>
    mismatch "marker refers to a released block" (toString marker) (toString block)
  | unwindForward offset used => s!"cannot unwind forward ({offset} > {used})"
  | outstandingForward marker stack => s!"cannot unwind forward ({marker} outstanding > {stack})"
  | declined cause => cause.display
  | heapRejected cause => s!"heap allocation rejected: {cause.display}"
  | layoutMismatch size alignment =>
    s!"heap deallocation with mismatched layout (size {size}, alignment {alignment})"
  | raised text => text
  | endlessReport => "leak reports do not end"
  | heapExhausted size alignment =>
    s!"memory allocation of {size} bytes at alignment {alignment} failed"
  | doubleFault first second => s!"{second.message} while handling {first.message}"

end Fault

end StackArena
