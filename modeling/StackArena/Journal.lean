/-
  The journal: what happened, in order.

  Allocators leave traces outside of their own state: regions are made and freed, the heap serves
  and takes back, events are emitted for whoever listens, and leak reports reach handlers.  Each
  of these is a `Note`; the journal is the list of all notes, oldest first.
-/
import StackArena.Identity
import StackArena.Layout

namespace StackArena

/-- How important an event is. -/
inductive Level where
  | trace
  | debug
  | warn
deriving DecidableEq, Repr

/-- The name of a level. -/
def Level.name : Level → String
  | trace => "TRACE"
  | debug => "DEBUG"
  | warn => "WARN"

/-- `Event`: a structured message for a listener. -/
inductive Event where
  /-- A stack needs a block that it does not have in its cache. -/
  | growing (stack : AllocatorId) (capacity total required : Nat)
  /-- An unwind released blocks. -/
  | unwound (stack : AllocatorId) (released remaining : Nat)
  /-- A stack freed its cached blocks. -/
  | shrunk (stack : AllocatorId) (freed : Nat)
  /-- An allocator has bytes outstanding that nobody will release. -/
  | leaked (who : AllocatorInfo) (bytes : Nat)
deriving DecidableEq, Repr

namespace Event

/-- The level of an event. -/
def level : Event → Level
  | growing .. => .debug
  | unwound .. => .trace
  | shrunk .. => .trace
  | leaked .. => .warn

/-- The text of an event. -/
def message : Event → String
  | growing .. => "allocating new block"
  | unwound .. => "unwound across block boundary"
  | shrunk .. => "released cached blocks"
  | leaked _ bytes => s!"allocator leaked {bytes} bytes"

/-- The value of a field. -/
inductive Field where
  | number (n : Nat)
  | text (s : String)
deriving DecidableEq, Repr

/-- The fields of an event by name. -/
def fields : Event → List (String × Field)
  | growing stack capacity total required =>
    [("stack", .number stack.value), ("capacity", .number capacity), ("total", .number total),
      ("required", .number required)]
  | unwound stack released remaining =>
    [("stack", .number stack.value), ("released", .number released),
      ("remaining", .number remaining)]
  | shrunk stack freed => [("stack", .number stack.value), ("freed", .number freed)]
  | leaked who bytes =>
    [("allocator", .text who.name), ("id", .number who.id.value), ("bytes", .number bytes)]

end Event

/-- `Handler`: a leak handler by name. -/
inductive Handler where
  /-- The handler used where none has been installed: it emits a warning. -/
  | standard
  | named (name : String)
deriving DecidableEq, Repr

/-- The name of a handler. -/
def Handler.name : Handler → String
  | standard => "default"
  | named name => name

/-- `Note`: one entry of the journal. -/
inductive Note where
  /-- A region was made. -/
  | made (region capacity : Nat)
  /-- A region was freed. -/
  | freed (region : Nat)
  /-- The heap served a request. -/
  | served (address : Nat) (layout : Layout)
  /-- The heap took memory back. -/
  | takenBack (address : Nat) (layout : Layout)
  /-- An event was emitted. -/
  | event (e : Event)
  /-- A leak report reached a handler. -/
  | leak (handler : Handler) (who : AllocatorInfo) (amount : Nat)
deriving DecidableEq, Repr

end StackArena
