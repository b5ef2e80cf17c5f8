/-
  Identities of allocators.

  An allocator value may be moved and stored anywhere, so its place says nothing about which
  allocator it is.  Each one takes a number from a rising counter when it is made; the pair of a
  kind name and that number is what a report about the allocator shows.
-/

namespace StackArena

/-- `AllocatorId n` is the `n`-th identity handed out; no two allocators share one. -/
structure AllocatorId where
  value : Nat
deriving DecidableEq, Repr, Inhabited

/-- **Debug text**: the number with its type around it. -/
def AllocatorId.debug (id : AllocatorId) : String := s!"AllocatorId({id.value})"

/-- What a diagnostic says about an allocator: the kind it is of and the instance it is. -/
structure AllocatorInfo where
  name : String
  id : AllocatorId
deriving DecidableEq, Repr

/-- **Display text**: kind and number with a hash between them. -/
def AllocatorInfo.display (who : AllocatorInfo) : String := s!"{who.name}#{who.id.value}"

end StackArena
