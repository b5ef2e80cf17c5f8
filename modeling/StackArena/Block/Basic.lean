/-
  Blocks: one region of memory with a bump cursor.

  A block serves requests from low addresses to high ones.  The bytes below the cursor are taken,
  and a request takes the padding up to its alignment and the bytes themselves, so it gets the
  lowest address that is possible.  Nothing is given back one by one: the cursor is moved back.

    base            base + cursor                 base + capacity
     | taken ... taken | padding | request | free ... free |

  All operations are on values: they are told the build, because a debug build checks the
  alignment and every sum of words.
-/
import StackArena.Host

namespace StackArena

/-- `Block`: a region with a cursor. -/
structure Block where
  /-- The number of the region. -/
  region : Nat
  /-- The address of the first byte. -/
  base : Nat
  capacity : Nat
  /-- The offset of the next free byte. -/
  cursor : Nat
  /-- Which block of its stack this is; a block that is reused gets a new serial. -/
  serial : Nat
deriving DecidableEq, Repr

/-- What a request gets from a block. -/
structure Allocation where
  address : Nat
  /-- Bytes taken from the block: the padding and the size. -/
  reserved : Nat
deriving DecidableEq, Repr

namespace Block

/-! ## Inspection -/

/-- Free bytes. -/
def remaining (b : Build) (blk : Block) : Except Fault Nat := b.sub blk.capacity blk.cursor

/-- Whether an address could have been handed out by the block.  The end counts, because a request
    of no bytes gets it from a full block. -/
def contains (b : Build) (blk : Block) (address : Nat) : Except Fault Bool := do
  let limit ← b.add blk.base blk.capacity
  return blk.base ≤ address && address ≤ limit

/-- **Debug text** of a block. -/
def debug (blk : Block) : String :=
  s!"Block \x7b serial: {blk.serial}, used: {blk.cursor}, capacity: {blk.capacity} \x7d"

/-! ## Serving requests -/

/-- Bytes that a request would take at the cursor; `none` if it does not fit. -/
def spanFor (b : Build) (blk : Block) (r : Request) : Except Fault (Option Nat) := do
  b.require (Alignment.isValid r.alignment) (.badAlignment r.alignment)
  let address ← b.add blk.base blk.cursor
  let padding ← Alignment.offset b address r.alignment
  match Word.add? padding r.size with
  | none => return none
  | some reserved =>
    let remaining ← blk.remaining b
    return if reserved ≤ remaining then some reserved else none

/-- The address at an offset. -/
def addressAt (blk : Block) (offset : Nat) : Except Fault Nat :=
  if offset ≤ blk.capacity then .ok (blk.base + offset) else .error (.offsetOutside offset)

/-- A request is served, or does not fit and changes nothing. -/
def tryAllocate (b : Build) (blk : Block) (r : Request) :
    Except Fault (Option (Allocation × Block)) := do
  match ← blk.spanFor b r with
  | none => return none
  | some reserved =>
    let cursor ← b.add blk.cursor reserved
    let start ← b.sub cursor r.size
    let address ← blk.addressAt start
    return some (⟨address, reserved⟩, { blk with cursor })

/-! ## Taking back -/

/-- All bytes are free again. -/
def reset (blk : Block) : Block := { blk with cursor := 0 }

/-- The block is emptied and becomes another block of its stack. -/
def recycle (serial : Nat) (blk : Block) : Block := { blk.reset with serial }

/-- The cursor is moved back to an offset.  An offset ahead of it is a broken contract; a release
    build stays where it is. -/
def rewind (b : Build) (offset : Nat) (blk : Block) : Except Fault Block := do
  b.require (offset ≤ blk.cursor) (.rewindForward offset blk.cursor)
  return { blk with cursor := min offset blk.cursor }

/-! ## On the host -/

/-- A block is made.  A capacity of 0 and one that no object may have are broken contracts. -/
def make (p : Platform) (capacity serial : Nat) : HostAction Block := do
  if capacity = 0 then throw .emptyBlock
  match (Request.mk capacity Alignment.maxNatural).layout? with
  | none => throw (.blockTooLarge capacity)
  | some layout =>
    let (region, base) ← Host.makeRegion p layout
    return { region, base, capacity, cursor := 0, serial }

/-- A block is freed. -/
def free (blk : Block) : HostAction Unit := Host.freeRegion blk.region

/-- `length` bytes from `offset` on are overwritten. -/
def fill (blk : Block) (offset length : Nat) (byte : UInt8) : HostAction Unit :=
  match Word.add? offset length with
  | none => throw (.fillOutside offset length)
  | some limit =>
    if limit ≤ blk.capacity then Host.fill blk.region offset length byte
    else throw (.fillOutside offset length)

end Block

end StackArena
