/-
  Why an allocator turns a request down.

  These are the answers of the fallible half of an allocator: the caller gets the cause as a value
  and may ask somebody else.  Each cause carries exactly the numbers its text shows.
-/

namespace StackArena

/-- `AllocError`: the causes for which a request is declined. -/
inductive AllocError where
  /-- The heap could not supply the request. -/
  | outOfMemory (size alignment : Nat)
  /-- There is no room left without growing. -/
  | exhausted (requested available : Nat)
  /-- The byte count of an array does not fit in a word. -/
  | sizeOverflow (count size : Nat)
  /-- The alignment is not a power of two. -/
  | invalidAlignment (alignment : Nat)
deriving DecidableEq, Repr

namespace AllocError

/-- **Display text** of a cause. -/
def display : AllocError → String
  | outOfMemory size alignment => s!"out of memory: {size} bytes at alignment {alignment}"
  | exhausted requested available =>
    s!"allocator exhausted: requested {requested} bytes, {available} bytes available"
  | sizeOverflow count size => s!"array size overflow: {count} elements of {size} bytes"
  | invalidAlignment alignment => s!"invalid alignment: {alignment}"

/-- The name of the kind of a cause. -/
def kind : AllocError → String
  | outOfMemory .. => "OutOfMemory"
  | exhausted .. => "Exhausted"
  | sizeOverflow .. => "SizeOverflow"
  | invalidAlignment .. => "InvalidAlignment"

/-- **Debug text** of a cause: its kind and its fields by name. -/
def debug : AllocError → String
  | outOfMemory size alignment =>
    s!"OutOfMemory \x7b size: {size}, alignment: {alignment} \x7d"
  | exhausted requested available =>
    s!"Exhausted \x7b requested: {requested}, available: {available} \x7d"
  | sizeOverflow count size => s!"SizeOverflow \x7b count: {count}, size: {size} \x7d"
  | invalidAlignment alignment => s!"InvalidAlignment \x7b alignment: {alignment} \x7d"

end AllocError

example : (AllocError.exhausted 128 12).display
    = "allocator exhausted: requested 128 bytes, 12 bytes available" := by decide
example : (AllocError.invalidAlignment 3).debug = "InvalidAlignment \x7b alignment: 3 \x7d" := by
  decide

end StackArena
