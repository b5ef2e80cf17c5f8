/-
  Memory: the regions that blocks live in, and the chunks of the heap.

  An `Extent` is a stretch of addresses that was made in one piece.  It is made once, is freed at
  most once, and stays on record after that, so that addresses need never be given out twice and
  a freed one can still be told apart.  A `Region` is an extent with its bytes: the home of a
  block or a buffer.  Regions are numbered in the order in which they were made; the chunks that
  the heap serves to its clients directly are kept apart from them, without their bytes.

  An address is a natural number; `locate?` reads one back as a region and an offset, where the
  end of a region belongs to it.  The `Outline` of memory is what a heap knows when it places
  something new: all extents, and none of the bytes.
-/
import StackArena.Layout
import StackArena.Memory.Bytes

namespace StackArena

/-! ## Extents and regions -/

/-- `Extent`: a stretch of addresses that was made in one piece. -/
structure Extent where
  base : Nat
  layout : Layout
  /-- Whether it has not been freed yet. -/
  live : Bool
deriving DecidableEq, Repr

namespace Extent

/-- The first address after the extent. -/
def limit (x : Extent) : Nat := x.base + x.layout.size

/-- Whether an address points into the extent or at its end. -/
def spans (x : Extent) (address : Nat) : Bool := x.base ≤ address && address ≤ x.limit

end Extent

/-- `Region`: an extent and what its bytes are. -/
structure Region extends Extent where
  bytes : Bytes
deriving DecidableEq, Repr

namespace Region

/-- A new region holds what was there before: `scrap`, as far as it goes. -/
def fresh (base : Nat) (layout : Layout) (scrap : Bytes) : Region :=
  ⟨⟨base, layout, true⟩, scrap.resize layout.size⟩

/-- A freed region keeps its bytes. -/
def kill (r : Region) : Region := { r with live := false }

/-- `length` bytes are overwritten from `offset` on. -/
def fill (offset length : Nat) (byte : UInt8) (r : Region) : Region :=
  { r with bytes := r.bytes.fill offset length byte }

end Region

/-! ## Memory -/

/-- `Memory`: everything that was ever made. -/
structure Memory where
  /-- Regions of blocks and buffers; the number of a region is its place here. -/
  regions : List Region
  /-- What the heap served to its clients. -/
  chunks : List Extent
deriving DecidableEq, Repr

/-- `Outline`: memory without its bytes. -/
structure Outline where
  regions : List Extent
  chunks : List Extent
deriving DecidableEq, Repr

namespace Outline

/-- The first address above everything that was ever made. -/
def limit (o : Outline) : Nat := (o.regions ++ o.chunks).foldl (fun top x => max top x.limit) 0

end Outline

namespace Memory

/-- Memory with nothing in it. -/
def empty : Memory := ⟨[], []⟩

/-- What a heap knows about memory. -/
def outline (m : Memory) : Outline := ⟨m.regions.map Region.toExtent, m.chunks⟩

/-- The number that the next region gets. -/
def nextRegion (m : Memory) : Nat := m.regions.length

/-- One more region. -/
def addRegion (m : Memory) (base : Nat) (layout : Layout) (scrap : Bytes) : Memory :=
  { m with regions := m.regions ++ [.fresh base layout scrap] }

/-- Region `number`, if there is one. -/
def region? (m : Memory) (number : Nat) : Option Region := m.regions[number]?

/-- Region `number` is freed. -/
def freeRegion (m : Memory) (number : Nat) : Memory :=
  { m with regions := m.regions.modify number Region.kill }

/-- `length` bytes of region `number` are overwritten from `offset` on. -/
def fill (m : Memory) (number offset length : Nat) (byte : UInt8) : Memory :=
  { m with regions := m.regions.modify number (Region.fill offset length byte) }

/-- One more chunk of the heap. -/
def addChunk (m : Memory) (base : Nat) (layout : Layout) : Memory :=
  { m with chunks := m.chunks ++ [⟨base, layout, true⟩] }

/-- The chunk at an address is given back. -/
def freeChunk (m : Memory) (base : Nat) : Memory :=
  { m with
    chunks := m.chunks.map fun x => if x.base = base then { x with live := false } else x }

/-- The chunk at an address, given back or not. -/
def chunk? (m : Memory) (base : Nat) : Option Extent := m.chunks.find? fun x => x.base == base

/-- The region that an address belongs to, and the offset in it. -/
def locate? (m : Memory) (address : Nat) : Option (Nat × Nat) := do
  let number ← m.regions.findIdx? fun r => r.spans address
  let r ← m.region? number
  return (number, address - r.base)

end Memory

end StackArena
