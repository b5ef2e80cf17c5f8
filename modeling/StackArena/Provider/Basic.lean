/-
  Providers: what an allocator offers to code that does not know which one it is.

  A request comes in two forms.  `allocate` always ends with memory or not at all; `tryAllocate`
  may decline with a cause.  Giving back comes in two forms too: `deallocate` is for memory that
  is known to come from here, `tryDeallocate` says whether it does.  All four have a form for
  arrays, which by default is the plain form on the bytes of the array.

  A provider of state `σ` is the record of these operations as actions on `σ`.
-/
import StackArena.Host

namespace StackArena

/-- What an allocator says that it can serve. -/
structure Limits where
  /-- The largest single request. -/
  maxNode : Nat
  /-- The largest array, in bytes. -/
  maxArray : Nat
  /-- The largest alignment. -/
  maxAlignment : Nat
deriving DecidableEq, Repr

namespace Limits

/-- Every object that can exist, at every natural alignment. -/
def standard : Limits := ⟨Word.maxSize, Word.maxSize, Alignment.maxNatural⟩

/-- The larger limit of the two in each respect. -/
def sup (l m : Limits) : Limits :=
  ⟨max l.maxNode m.maxNode, max l.maxArray m.maxArray, max l.maxAlignment m.maxAlignment⟩

end Limits

/-- `Provider σ`: the operations of an allocator with state `σ`.  In the array forms the request
    is for one element. -/
structure Provider (σ : Type) where
  build : Build
  allocate : Request → Action σ Nat
  tryAllocate : Request → Action σ (Except AllocError Nat)
  deallocate : Nat → Request → Action σ Unit
  tryDeallocate : Nat → Request → Action σ Bool
  limits : σ → Limits := fun _ => Limits.standard
  allocateArray : Nat → Request → Action σ Nat := fun count element => do
    match arraySize count element.size with
    | .ok total => allocate ⟨total, element.alignment⟩
    | .error cause => throw (.declined cause)
  tryAllocateArray : Nat → Request → Action σ (Except AllocError Nat) := fun count element =>
    match arraySize count element.size with
    | .ok total => tryAllocate ⟨total, element.alignment⟩
    | .error cause => return .error cause
  deallocateArray : Nat → Nat → Request → Action σ Unit := fun address count element => do
    let total ← build.mul count element.size
    deallocate address ⟨total, element.alignment⟩
  tryDeallocateArray : Nat → Nat → Request → Action σ Bool := fun address count element =>
    match Word.mul? count element.size with
    | some total => tryDeallocate address ⟨total, element.alignment⟩
    | none => return false

end StackArena
