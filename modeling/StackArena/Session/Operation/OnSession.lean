/-
  Operations that need no target.

  They work on slots, names and the host: allocators are made, discarded and taken apart, memory
  is looked at and written to by clients, leak handlers are installed and called.
-/
import StackArena.Session.State

namespace StackArena.Session

/-! ## Slots -/

/-- An allocator is made in a new slot.  The slot stays empty if it cannot be made. -/
def make (p : Platform) (recipe : Recipe) : Action Session Answer := do
  let s ← Action.self
  let slot := s.slots.length
  Action.setSelf (s.addSlot none)
  match ← recipe.make p with
  | .error e => return .misconfigured e
  | .ok state =>
    let s ← Action.self
    Action.setSelf (s.setSlot slot (some ⟨recipe.tree, state⟩))
    return .nothing

/-- The allocator in a slot comes to its end. -/
def discard (p : Platform) (slot : Nat) : Action Session Answer := do
  let s ← Action.self
  match s.slot? slot with
  | none => return .nothing
  | some allocator =>
    Action.setSelf (s.setSlot slot none)
    Action.withState allocator.state (allocator.tree.discard p)
    return .nothing

/-- A fallback is taken apart. -/
def split (slot : Nat) : Action Session Answer := do
  let s ← Action.self
  match s.slot? slot with
  | some ⟨.fallback first second, (a, b)⟩ =>
    let s := s.setSlot slot (some ⟨first, a⟩)
    Action.setSelf (s.addSlot (some ⟨second, b⟩))
    return .number s.slots.length
  | _ => return .refusal .notAFallback

/-! ## Memory and markers -/

/-- Two markers are compared. -/
def compareMarkers (a b : String) : Action Session Answer := do
  let s ← Action.self
  match s.markers.lookup a, s.markers.lookup b with
  | some m, some n => return .compared (.ofMarkers m n)
  | _, _ => return .refusal .unset

/-- The bytes of a region are shown, also when it has been freed. -/
def inspect (number : Nat) : HostAction Answer := do
  let h ← get
  match h.memory.region? number with
  | some r => return .bytes r.live r.bytes.maximal
  | none => return .refusal .unset

/-- Bytes of a region are written by a client and read back. -/
def writeRegion (number offset length : Nat) (byte : UInt8) : HostAction Answer := do
  Host.fill number offset length byte
  let h ← get
  return .number (((h.memory.region? number).map fun r => r.bytes.sum offset length).getD 0)

/-- All bytes of a handle are overwritten and read back, though never past the region.  The heap
    is not written to once the memory has been given back. -/
def write (name : String) (byte : UInt8) : Action Session Answer := do
  let s ← Action.self
  match s.handles.lookup name with
  | none => return .refusal .unset
  | some handle =>
    let h ← (get : HostAction Host)
    match h.memory.locate? handle.address with
    | some (number, offset) =>
      let capacity := ((h.memory.region? number).map fun r => r.layout.size).getD 0
      writeRegion number offset (min handle.bytes (capacity - offset)) byte
    | none =>
      if (h.memory.chunk? handle.address).any Extent.live then
        return .number (handle.bytes * byte.toNat)
      else return .refusal .refused

/-- The heap is given back an address that it never served. -/
def deallocateForeign (p : Platform) (r : Request) : HostAction Answer := do
  Heap.deallocate p 0 r
  return .flag true

/-! ## Leak handlers and identities -/

/-- A leak handler is installed. -/
def setHandler (choice : HandlerChoice) : Action Session Answer := do
  let s ← Action.self
  let next := match choice with
    | .this handler => handler
    | .saved => s.saved
  let previous ← Host.install next
  Action.setSelf { s with saved := previous }
  return .text previous.name

/-- The installed handler is called without a report. -/
def callHandler (p : Platform) (amount : Nat) : HostAction Answer := do
  let id ← Host.freshId
  let h ← get
  Host.call p p.reportDepth h.handler ⟨"direct", id⟩ amount
  return .nothing

/-- A leak is reported under a new identity. -/
def report (p : Platform) (name : String) (amount : Nat) : HostAction Answer := do
  let id ← Host.freshId
  let who : AllocatorInfo := ⟨name, id⟩
  Host.reportLeak p who amount
  return .reported who.display

/-- So many identities. -/
def takeIds : Nat → HostAction (List AllocatorId)
  | 0 => return []
  | count + 1 => do
    let id ← Host.freshId
    return id :: (← takeIds count)

/-- Whether each identity is larger than the one before. -/
def rising : List AllocatorId → Bool
  | id :: next :: rest => id.value < next.value && rising (next :: rest)
  | _ => true

/-! ## All of them -/

/-- An operation that needs no target. -/
def onSession (p : Platform) : OnSession → Action Session Answer
  | .make recipe => make p recipe
  | .discard slot => discard p slot
  | .split slot => split slot
  | .compare a b => compareMarkers a b
  | .inspect region => inspect region
  | .write handle byte => write handle byte
  | .setHandler choice => setHandler choice
  | .getHandler => do
    let h ← (get : HostAction Host)
    return .text h.handler.name
  | .callHandler amount => callHandler p amount
  | .report name amount => report p name amount
  | .takeIds count => do
    let taken ← takeIds count
    return .ids taken (rising taken)
  | .deallocateForeign r => deallocateForeign p r
  | .raise text => throw (.raised text)

end StackArena.Session
