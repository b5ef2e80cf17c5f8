/-
  What a session answers.

  Each command leads to a step: the path of the command, the answer, the state of the target, and
  the notes that came into the journal on the way.  Addresses are not shown as numbers: one that
  lies in a region is shown by region and offset, and one on the heap by whether it is aligned.
-/
import StackArena.Session.Command

namespace StackArena.Session

/-- An address as it is shown. -/
inductive Spot where
  | inRegion (region offset : Nat)
  | onHeap (aligned : Bool)
deriving DecidableEq, Repr

/-- Why a command is not carried out. -/
inductive Refusal where
  | noTarget
  | notAStack
  | notAFallback
  | noGuard
  /-- There is nothing under the name. -/
  | unset
  /-- It would hand the heap something that is not its own. -/
  | refused
deriving DecidableEq, Repr

/-- The text of a refusal. -/
def Refusal.text : Refusal → String
  | noTarget => "no target"
  | notAStack => "not a stack"
  | notAFallback => "not a fallback"
  | noGuard => "no guard"
  | unset => "unset"
  | refused => "refused"

/-- How two markers compare. -/
structure Comparison where
  order : Option Ordering
  same : Bool
deriving DecidableEq, Repr

namespace Comparison

/-- Two markers compared. -/
def ofMarkers (m n : Marker) : Comparison := ⟨m.compare? n, m == n⟩

/-- The first lies before the second. -/
def lt (c : Comparison) : Bool := c.order == some .lt

/-- The first lies before the second, or at the same place. -/
def le (c : Comparison) : Bool := c.order == some .lt || c.order == some .eq

/-- The first lies after the second. -/
def gt (c : Comparison) : Bool := c.order == some .gt

/-- The first lies after the second, or at the same place. -/
def ge (c : Comparison) : Bool := c.order == some .gt || c.order == some .eq

end Comparison

/-- `Answer`: what comes of a command. -/
inductive Answer where
  | nothing
  | flag (b : Bool)
  | number (n : Nat)
  | text (s : String)
  | spot (s : Spot)
  | spots (ss : List Spot)
  | compared (c : Comparison)
  | bytes (live : Bool) (runs : List (UInt8 × Nat))
  | reported (text : String)
  | ids (taken : List AllocatorId) (rising : Bool)
  | limits (l : Limits)
  | growth (g : Growth)
  | info (who : AllocatorInfo)
  | entered
  | left
  | refusal (why : Refusal)
  | declined (cause : AllocError)
  | misconfigured (e : ConfigError)
  | faulted (fault : Fault)
deriving Repr

/-- The answer to an operation that may fault. -/
def Answer.ofOutcome : Except Fault Answer → Answer
  | .ok a => a
  | .error fault => .faulted fault

/-- The state of a target as it is shown. -/
inductive Status where
  | stack (outstanding blockCount cached capacity left nextCapacity : Nat)
  | heap (served takenBack : Nat)
  | budget (used : Nat)
  | fallback (first second : Status)
deriving Repr

/-- The state of an allocator as it is shown.  All heaps are one. -/
def Status.of (journal : List Note) : (t : Tree) → t.State → Status
  | .stack, s => stackStatus s
  | .heap, _ => .heap (Heap.traffic journal).1 (Heap.traffic journal).2
  | .budget, b => budgetStatus b
  | .fallback first second, (s, t) => .fallback (of journal first s) (of journal second t)
where
  /-- The state of a stack. -/
  stackStatus (s : Stack) : Status :=
    .stack s.outstanding s.blockCount s.cache.length s.capacity
      (s.current.capacity - s.current.cursor) s.nextCapacity
  /-- The state of a budget. -/
  budgetStatus (b : Budget) : Status := .budget b.used

/-- `Step`: a command that was carried out. -/
structure Step where
  path : List Nat
  answer : Answer
  status : Option Status
  /-- What came into the journal since the step before. -/
  notes : List Note
deriving Repr

namespace Step

/-- The regions that were made, with their capacities. -/
def made (s : Step) : List (Nat × Nat) :=
  s.notes.filterMap fun
    | .made region capacity => some (region, capacity)
    | _ => none

/-- The regions that were freed, in rising order. -/
def freed (s : Step) : List Nat :=
  (s.notes.filterMap fun
    | .freed region => some region
    | _ => none).mergeSort

/-- The events that were emitted. -/
def events (s : Step) : List Event :=
  s.notes.filterMap fun
    | .event e => some e
    | _ => none

/-- The leak reports that reached a handler with a name of its own. -/
def leaks (s : Step) : List (String × AllocatorInfo × Nat) :=
  s.notes.filterMap fun
    | .leak (.named name) who amount => some (name, who, amount)
    | _ => none

end Step

end StackArena.Session
