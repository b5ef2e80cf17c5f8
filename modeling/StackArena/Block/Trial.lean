/-
  A trial of a single block: moves one after the other, with the state of the block after each.

  A move that faults leaves the block as it was, and the trial goes on.
-/
import StackArena.Block.Basic

namespace StackArena.Trial

/-- One thing to do with a block. -/
inductive Move where
  | allocate (r : Request)
  | span (r : Request)
  | reset
  | rewind (offset : Nat)
  /-- Ask for the address at a distance from the base. -/
  | contains (distance : Int)
  | debug
deriving Repr

/-- What comes of a move. -/
inductive Reply where
  | nothing
  /-- An allocation, by its offset in the block and the bytes it took. -/
  | served (offset reserved : Nat)
  | number (n : Nat)
  | flag (b : Bool)
  | text (s : String)
  | faulted (fault : Fault)
deriving Repr

/-- A reply, and the block after it. -/
structure Step where
  reply : Reply
  block : Block
deriving Repr

/-- One move. -/
def play (b : Build) (blk : Block) : Move → Except Fault (Reply × Block)
  | .allocate r => do
    match ← blk.tryAllocate b r with
    | none => return (.nothing, blk)
    | some (a, after) => return (.served (a.address - blk.base) a.reserved, after)
  | .span r => do
    match ← blk.spanFor b r with
    | none => return (.nothing, blk)
    | some reserved => return (.number reserved, blk)
  | .reset => return (.nothing, blk.reset)
  | .rewind offset => return (.nothing, ← blk.rewind b offset)
  | .contains distance => do
    let inside ← blk.contains b (blk.base + distance).toNat
    return (.flag inside, blk)
  | .debug => return (.text blk.debug, blk)

/-- All moves in order. -/
def playAll (b : Build) (blk : Block) : List Move → List Step
  | [] => []
  | move :: rest =>
    match play b blk move with
    | .ok (reply, after) => ⟨reply, after⟩ :: playAll b after rest
    | .error fault => ⟨.faulted fault, blk⟩ :: playAll b blk rest

/-- A block is made, tried and freed; the result is the steps, and the journal of the host. -/
def run (p : Platform) (capacity serial : Nat) (moves : List Move) :
    Except Fault (List Step × List Note) :=
  let whole : HostAction (List Step) := do
    let blk ← Block.make p capacity serial
    let steps := playAll p.build blk moves
    blk.free
    return steps
  match whole .initial with
  | .ok steps h => .ok (steps, h.journal)
  | .error fault _ => .error fault

end StackArena.Trial
