/-
  Markers: positions of a stack.

  A marker says which stack it was taken from, how many blocks were active, which of them was the
  current one and where its cursor stood.  Two markers of one stack compare by depth and then by
  offset; at one depth they compare only if they speak of the same block, since another serial
  means that one of the two positions has been unwound since.
-/
import StackArena.Identity

namespace StackArena

/-- `Marker`: a position of a stack. -/
structure Marker where
  stack : AllocatorId
  /-- The number of active blocks. -/
  depth : Nat
  /-- The serial of the current block. -/
  serial : Nat
  /-- The cursor of the current block. -/
  offset : Nat
  /-- Bytes reserved in all blocks. -/
  outstanding : Nat
deriving DecidableEq, Repr

namespace Marker

/-- The order of two markers; `none` if they cannot be compared. -/
def compare? (m n : Marker) : Option Ordering :=
  if m.stack ≠ n.stack then none
  else match compare m.depth n.depth with
    | .eq => if m.serial ≠ n.serial then none else some (compare m.offset n.offset)
    | order => some order

/-- **Debug text** of a marker. -/
def debug (m : Marker) : String :=
  s!"Marker \x7b stack: {m.stack.debug}, depth: {m.depth}, serial: {m.serial}, "
    ++ s!"offset: {m.offset}, outstanding: {m.outstanding} \x7d"

end Marker

end StackArena
