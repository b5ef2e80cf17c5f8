/-
  Requests for memory, and the layouts that a heap accepts.

  A `Request` is what a client asks for: any two words.  A `Layout` is a request that has been
  checked against the rules of the heap: the alignment is a power of two, and the size, rounded
  up to the alignment, is at most `Word.maxSize`.
-/
import StackArena.Alignment

namespace StackArena

/-- A number of bytes wanted at an alignment. -/
structure Request where
  size : Nat
  alignment : Nat
deriving DecidableEq, Repr

/-- A size and an alignment that the heap accepts (`Request.layout`). -/
structure Layout where
  size : Nat
  alignment : Nat
deriving DecidableEq, Repr

namespace Request

/-- The heap's own check: the size rounded up to the alignment is at most `Word.maxSize`. -/
def layout? (r : Request) : Option Layout :=
  if Alignment.isValid r.alignment && r.size ≤ Nat.pow 2 63 - r.alignment then
    some ⟨r.size, r.alignment⟩
  else none

/-- The layout of a request.  A bad alignment is the cause to report even if the size is too
    large as well. -/
def layout (r : Request) : Except AllocError Layout :=
  match r.layout? with
  | some layout => .ok layout
  | none =>
    if Alignment.isValid r.alignment then .error (.outOfMemory r.size r.alignment)
    else .error (.invalidAlignment r.alignment)

/-- Bytes that hold the request on every base that is a multiple of `Alignment.maxNatural`: the
    size, and the slack that a larger alignment may need. -/
def room? (r : Request) : Option Nat :=
  Word.add? r.size (r.alignment - Alignment.maxNatural)

end Request

/-- Bytes of an array of `count` elements of `size` bytes. -/
def arraySize (count size : Nat) : Except AllocError Nat :=
  match Word.mul? count size with
  | some total => .ok total
  | none => .error (.sizeOverflow count size)

end StackArena
