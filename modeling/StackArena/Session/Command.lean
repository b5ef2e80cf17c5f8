/-
  What can be asked for in a session.

  A session works on allocators in numbered slots.  Memory that has been handed out and positions
  of stacks are kept under names.  An `Operation` belongs to one of four groups, by what it needs:
  nothing but the session, an allocator, a stack, or a guard.  A `Command` is an operation with
  its target, or a guarded scope with the commands inside it.
-/
import StackArena.Tree

namespace StackArena.Session

/-- The allocator that a command is about: a slot, and a part of what is in it. -/
structure Target where
  slot : Nat
  path : List Side
deriving Repr

/-- The leak handler to install. -/
inductive HandlerChoice where
  | this (handler : Handler)
  /-- The one that was replaced last. -/
  | saved
deriving Repr

/-- Operations that need no target. -/
inductive OnSession where
  | make (recipe : Recipe)
  | discard (slot : Nat)
  /-- A fallback is taken apart: its first side stays, its second side gets a slot of its own. -/
  | split (slot : Nat)
  | compare (a b : String)
  /-- The bytes of a region. -/
  | inspect (region : Nat)
  | write (handle : String) (byte : UInt8)
  | setHandler (choice : HandlerChoice)
  | getHandler
  | callHandler (amount : Nat)
  | report (name : String) (amount : Nat)
  | takeIds (count : Nat)
  /-- The heap is given back something that it never served. -/
  | deallocateForeign (r : Request)
  | raise (text : String)
deriving Repr

/-- What is given back: a handle, with parts of its request replaced and its address shifted. -/
structure GiveBack where
  handle : String
  size : Option Nat
  count : Option Nat
  alignment : Option Nat
  shift : Option Int
deriving Repr

/-- Whether anything about the handle is changed. -/
def GiveBack.isChanged (g : GiveBack) : Bool :=
  g.size.isSome || g.count.isSome || g.alignment.isSome || g.shift.isSome

/-- Operations of every allocator. -/
inductive OnAllocator where
  /-- A request, or one for `count` elements.  It `mayDecline` or has to be served. -/
  | allocate (mayDecline : Bool) (count : Option Nat) (r : Request) (name : Option String)
  /-- Memory is given back, as an array or not.  The allocator is asked or told. -/
  | deallocate (asks array : Bool) (g : GiveBack)
  | limits
  | debug
  /-- Nothing is done; the state is looked at. -/
  | look
deriving Repr

/-- Operations of stacks. -/
inductive OnStack where
  | allocate (r : Request) (name : Option String)
  | tryAllocate (r : Request) (name : Option String)
  | allocateAll (requests : List Request)
  | top (name : Option String)
  | unwind (marker : String)
  | unwindAll
  | shrink
  | reportLeaks
  | growth
  | info
  | owns (handle : String) (shift : Int)
deriving Repr

/-- Operations of guards. -/
inductive OnGuard where
  | disarm
  | unwind
  | willUnwind
  | marker
deriving Repr

/-- Everything that can be asked for. -/
inductive Operation where
  | onSession (g : OnSession)
  | onAllocator (o : OnAllocator)
  | onStack (o : OnStack)
  | onGuard (o : OnGuard)
deriving Repr

/-- An operation that stops by itself leaves the scope that it is in. -/
def Operation.raises : Operation → Bool
  | .onSession (.raise _) => true
  | _ => false

/-- Operations that end or move allocators leave no target to look at. -/
def Operation.moves : Operation → Bool
  | .onSession (.make _) | .onSession (.discard _) | .onSession (.split _) => true
  | _ => false

/-- `Command`: one entry of a session. -/
inductive Command where
  /-- An operation.  If it `bubbles`, its fault leaves the scope that it is in. -/
  | act (target : Target) (bubbles : Bool) (op : Operation)
  /-- A guarded scope.  If it `catches`, a fault that leaves it goes no further. -/
  | guarded (target : Target) (catches : Bool) (body : List Command)
deriving Repr

end StackArena.Session
