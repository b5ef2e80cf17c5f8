/-
  The heap as a provider.

  It has no state of its own: chunks live in the memory of the host.  A request for no bytes is
  served as one for a single byte, so that all addresses handed out are different.  The heap takes
  back whatever it is given, which makes it the natural end of a chain.
-/
import StackArena.Provider.Basic

namespace StackArena.Heap

/-- The layout in which a request is served. -/
def layout (r : Request) : Except AllocError Layout :=
  (Request.mk (max r.size 1) r.alignment).layout

/-- A chunk of a layout, if the heap has room for it. -/
def serve (p : Platform) (l : Layout) : HostAction (Option Nat) := do
  let h ← get
  match p.placeChunk h.memory.outline l with
  | none => return none
  | some base =>
    set { h with memory := h.memory.addChunk base l }
    Host.note (.served base l)
    return some base

/-- A request that may not fail. -/
def allocate (p : Platform) (r : Request) : HostAction Nat := do
  match layout r with
  | .error cause => throw (.heapRejected cause)
  | .ok l =>
    match ← serve p l with
    | some address => return address
    | none => throw (.heapExhausted l.size l.alignment)

/-- A request that may be declined. -/
def tryAllocate (p : Platform) (r : Request) : HostAction (Except AllocError Nat) := do
  match layout r with
  | .error cause => return .error cause
  | .ok l =>
    match ← serve p l with
    | some address => return .ok address
    | none => return .error (.outOfMemory r.size r.alignment)

/-- A chunk is given back.  A request that has no layout is a broken contract; a release build
    does nothing then. -/
def deallocate (p : Platform) (address : Nat) (r : Request) : HostAction Unit := do
  match layout r with
  | .error _ =>
    match p.build with
    | .debug => throw (.layoutMismatch r.size r.alignment)
    | .release => return
  | .ok l =>
    modify fun h => { h with memory := h.memory.freeChunk address }
    Host.note (.takenBack address l)

/-- The heap as a provider. -/
def provider (p : Platform) : Provider Unit where
  build := p.build
  allocate r := allocate p r
  tryAllocate r := tryAllocate p r
  deallocate address r := deallocate p address r
  tryDeallocate address r := do
    deallocate p address r
    return true

/-- **Debug text** of the heap. -/
def debug : String := "HeapAllocator"

/-- How many requests the heap has served, and how many chunks it has taken back. -/
def traffic (journal : List Note) : Nat × Nat :=
  (journal.countP fun | .served .. => true | _ => false,
    journal.countP fun | .takenBack .. => true | _ => false)

end StackArena.Heap
