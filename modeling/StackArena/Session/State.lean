/-
  The state of a session.

  Slots are numbered in the order in which they were taken; a slot may be empty.  Handles and
  markers are kept by name, the latest under a name first.  The steps so far are part of the
  state, because they stay when a fault cuts a scope short.
-/
import StackArena.Session.Answer

namespace StackArena

/-- What is known about memory that was handed out. -/
structure Session.Handle where
  address : Nat
  /-- The number of elements, for an array. -/
  count : Option Nat
  /-- The request, or that of one element. -/
  request : Request
  onHeap : Bool
deriving DecidableEq, Repr

/-- The bytes that a handle stands for. -/
def Session.Handle.bytes (h : Session.Handle) : Nat := h.count.getD 1 * h.request.size

/-- `Session`: slots, names and the steps so far. -/
structure Session where
  slots : List (Option Allocator)
  handles : List (String × Session.Handle)
  markers : List (String × Marker)
  /-- The leak handler that was replaced last. -/
  saved : Handler
  /-- How many notes of the journal belong to the steps so far. -/
  seen : Nat
  /-- The steps so far, oldest first. -/
  steps : List Session.Step

namespace Session

/-- The session at its start. -/
def initial : Session := ⟨[], [], [], .standard, 0, []⟩

/-- The allocator in a slot. -/
def slot? (s : Session) (slot : Nat) : Option Allocator := s.slots[slot]?.join

/-- A slot gets another content. -/
def setSlot (s : Session) (slot : Nat) (content : Option Allocator) : Session :=
  { s with slots := s.slots.set slot content }

/-- One more slot. -/
def addSlot (s : Session) (content : Option Allocator) : Session :=
  { s with slots := s.slots ++ [content] }

/-- A step is added, with all notes that no step has yet. -/
def record (path : List Nat) (answer : Answer) (status : Option Status) : Action Session Unit :=
  fun (s, h) =>
    let step : Step := ⟨path, answer, status, h.journal.drop s.seen⟩
    .ok () ({ s with seen := h.journal.length, steps := s.steps ++ [step] }, h)

/-! ## Names -/

/-- A marker is kept, if there is a name for it. -/
def keepMarker (name : Option String) (m : Marker) : Action Session Unit := do
  if let some name := name then
    let s ← Action.self
    Action.setSelf { s with markers := (name, m) :: s.markers }

/-- The way in which an address that was asked for at an alignment is shown. -/
def spotOf (address alignment : Nat) : HostAction Spot := do
  let h ← get
  match h.memory.locate? address with
  | some (region, offset) => return .inRegion region offset
  | none => return .onHeap (address % alignment == 0)

/-- Memory that was handed out is kept, if there is a name for it, and shown. -/
def keepHandle (name : Option String) (address : Nat) (count : Option Nat) (r : Request) :
    Action Session Answer := do
  let spot ← spotOf address r.alignment
  if let some name := name then
    let onHeap := match spot with
      | .onHeap _ => true
      | .inRegion .. => false
    let s ← Action.self
    Action.setSelf { s with handles := (name, ⟨address, count, r, onHeap⟩) :: s.handles }
  return .spot spot

/-! ## Targets -/

/-- An action on the target, while its slot is empty.  The target goes back into the slot however
    the action ends.  Without a target nothing is done. -/
def withTarget {α : Type} (target : Target) (act : (t : Tree) → Action (t.State × Session) α) :
    Action Session (Option α) := fun (s, h) =>
  match s.slot? target.slot with
  | none => .ok none (s, h)
  | some allocator =>
    match allocator.tree.part? target.path with
    | none => .ok none (s, h)
    | some part =>
      let back (inner : part.shape.State) (s : Session) : Session :=
        s.setSlot target.slot (some ⟨allocator.tree, part.put inner allocator.state⟩)
      match act part.shape ((part.get allocator.state, s.setSlot target.slot none), h) with
      | .ok x ((inner, s), h) => .ok (some x) (back inner s, h)
      | .error f ((inner, s), h) => .error f (back inner s, h)

/-- The state of the target as it is shown. -/
def statusOf (target : Target) : Action Session (Option Status) := fun (s, h) =>
  let status := do
    let allocator ← s.slot? target.slot
    let part ← allocator.tree.part? target.path
    return Status.of h.journal part.shape (part.get allocator.state)
  .ok status (s, h)

/-- The state of an allocator as it is shown. -/
def statusHere (t : Tree) : Action (t.State × Session) Status := fun ((s, r), h) =>
  .ok (Status.of h.journal t s) ((s, r), h)

end Session

end StackArena
