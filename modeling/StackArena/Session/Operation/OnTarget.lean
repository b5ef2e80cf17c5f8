/-
  Operations on a target: any allocator, a stack, or a guarded stack.

  Giving memory back to an allocator with a heap in it is dangerous: the heap takes everything.
  `refuses` rules out what would hand the heap something that is not its own, or give it back
  twice.
-/
import StackArena.Session.Operation.OnSession

namespace StackArena.Session

/-! ## Every allocator -/

/-- Whether a handle must not be given back to an allocator, as changed and at that address. -/
def refuses (p : Platform) (memory : Memory) (t : Tree) (s : t.State) (g : GiveBack)
    (handle : Handle) (address : Nat) : Except Fault Bool := do
  if !t.hasHeap then return handle.onHeap
  else if g.isChanged then return true
  else if handle.onHeap && !(memory.chunk? address).any Extent.live then return true
  else
    let taker ← t.taker? p.build s address
    return (taker == some .heap) != handle.onHeap

/-- A request to an allocator. -/
def request (p : Platform) (t : Tree) (mayDecline : Bool) (count : Option Nat) (r : Request) :
    Action t.State (Except AllocError Nat) :=
  let provider := t.provider p
  match mayDecline, count with
  | true, none => provider.tryAllocate r
  | true, some count => provider.tryAllocateArray count r
  | false, none => return .ok (← provider.allocate r)
  | false, some count => return .ok (← provider.allocateArray count r)

/-- Memory is given back to an allocator.  An array given back plainly is one piece of all its
    bytes, and a single piece given back as an array has one element. -/
def giveBack (p : Platform) (t : Tree) (asks array : Bool) (g : GiveBack) (handle : Handle)
    (address : Nat) : Action t.State Answer := do
  let provider := t.provider p
  let size := if array then handle.request.size else handle.bytes
  let r : Request := ⟨g.size.getD size, g.alignment.getD handle.request.alignment⟩
  let count := g.count.getD (handle.count.getD 1)
  match asks, array with
  | false, false =>
    provider.deallocate address r
    return .nothing
  | false, true =>
    provider.deallocateArray address count r
    return .nothing
  | true, false => return .flag (← provider.tryDeallocate address r)
  | true, true => return .flag (← provider.tryDeallocateArray address count r)

/-- An operation of every allocator. -/
def onAllocator (p : Platform) (t : Tree) : OnAllocator → Action (t.State × Session) Answer
  | .allocate mayDecline count r name => do
    match ← Action.onFirst (request p t mayDecline count r) with
    | .error cause => return .declined cause
    | .ok address => Action.onSecond (keepHandle name address count r)
  | .deallocate asks array g => do
    let (state, s) ← Action.self
    match s.handles.lookup g.handle with
    | none => return .refusal .unset
    | some handle =>
      let address := (handle.address + g.shift.getD 0).toNat
      let h ← (get : HostAction Host)
      if ← refuses p h.memory t state g handle address then return .refusal .refused
      else Action.onFirst (giveBack p t asks array g handle address)
  | .limits => do
    let (state, _) ← Action.self
    return .limits ((t.provider p).limits state)
  | .debug => do
    let (state, _) ← Action.self
    return .text (t.debug state)
  | .look => return .nothing

/-! ## Stacks -/

/-- Addresses as they are shown. -/
def spotsOf : List (Nat × Request) → HostAction (List Spot)
  | [] => return []
  | (address, r) :: rest => do
    let spot ← spotOf address r.alignment
    return spot :: (← spotsOf rest)

/-- An operation of stacks. -/
def onStack (p : Platform) : OnStack → Action (Stack × Session) Answer
  | .allocate r name => do
    let address ← Action.onFirst (Stack.allocate p r)
    Action.onSecond (keepHandle name address none r)
  | .tryAllocate r name => do
    match ← Action.onFirst (Stack.tryAllocate p r) with
    | none => return .nothing
    | some address => Action.onSecond (keepHandle name address none r)
  | .allocateAll requests => do
    let addresses ← Action.onFirst (Stack.allocateAll p requests)
    return .spots (← spotsOf (addresses.zip requests))
  | .top name => do
    let (stack, _) ← Action.self
    Action.onSecond (keepMarker name stack.top)
    return .text stack.top.debug
  | .unwind marker => do
    let (_, s) ← Action.self
    match s.markers.lookup marker with
    | none => return .refusal .unset
    | some m =>
      Action.onFirst (Stack.unwind p m)
      return .nothing
  | .unwindAll => do
    Action.onFirst (Stack.unwindAll p)
    return .nothing
  | .shrink => do
    Action.onFirst Stack.shrink
    return .nothing
  | .reportLeaks => return .number (← Action.onFirst (Stack.reportLeaks p))
  | .growth => do
    let (stack, _) ← Action.self
    return .growth stack.growth
  | .info => do
    let (stack, _) ← Action.self
    return .info stack.info
  | .owns name shift => do
    let (stack, s) ← Action.self
    match s.handles.lookup name with
    | none => return .refusal .unset
    | some handle =>
      let address := if handle.onHeap then 0 else (handle.address + shift).toNat
      return .flag (← stack.owns p.build address)

/-! ## Guards -/

/-- An operation of guards. -/
def onGuard (p : Platform) : OnGuard → Action (Guard × Stack × Session) Answer
  | .disarm => do
    let (g, rest) ← Action.self
    Action.setSelf (g.disarm, rest)
    return .nothing
  | .unwind => do
    let (g, _) ← Action.self
    Action.onSecond (Action.onFirst (g.unwind p))
    return .nothing
  | .willUnwind => do
    let (g, _) ← Action.self
    return .flag g.armed
  | .marker => do
    let (g, _) ← Action.self
    return .text g.marker.debug

/-! ## By the kind of target -/

/-- An operation on an allocator outside of every scope. -/
def outside (p : Platform) (t : Tree) : Operation → Action (t.State × Session) Answer
  | .onSession g => Action.onSecond (onSession p g)
  | .onAllocator o => onAllocator p t o
  | .onStack o =>
    match t with
    | .stack => onStack p o
    | _ => return .refusal .notAStack
  | .onGuard _ => return .refusal (if t = .stack then .noGuard else .notAStack)

/-- An operation inside a scope. -/
def inside (p : Platform) : Operation → Action (Guard × Stack × Session) Answer
  | .onSession g => Action.onSecond (Action.onSecond (onSession p g))
  | .onAllocator o => Action.onSecond (onAllocator p .stack o)
  | .onStack o => Action.onSecond (onStack p o)
  | .onGuard o => onGuard p o

end StackArena.Session
