/-
  The host: what allocators share, and actions on it.

  1. **Platform** — what is fixed for a program: its build, where memory is placed and what it holds
     at first, and what the named leak handlers do.
  2. **Host** — what changes: memory, the counter of identities, the leak hook and the journal.
  3. **Action** — an operation of something with a state `σ` of its own on a host.  It ends with a
     value or with a fault, and in both cases with a state: what was done before a fault stays
     done.
-/
import StackArena.Conduct
import StackArena.Memory.Basic

namespace StackArena

/-! ## Platform and host -/

/-- `Platform`: what is fixed for a program. -/
structure Platform where
  build : Build
  /-- The base of a new region; `none` if the heap cannot serve it. -/
  placeRegion : Outline → Layout → Option Nat
  /-- The base of a new chunk; `none` if the heap cannot serve it. -/
  placeChunk : Outline → Layout → Option Nat
  /-- What a region holds, by its number, before anything is written to it; zeros where there are no
      bytes any more. -/
  scrap : Nat → Bytes
  /-- What a named handler does about a report. -/
  conduct : String → AllocatorInfo → Nat → Conduct
  /-- How deep reports may nest inside handlers. -/
  reportDepth : Nat

/-- What a handler does about a report. -/
def Platform.conductOf (p : Platform) : Handler → AllocatorInfo → Nat → Conduct
  | .standard => Conduct.warn
  | .named name => p.conduct name

/-- `Hook`: the leak handler that is installed, and what handlers have kept. -/
structure Hook where
  handler : Handler
  memo : Memo
deriving DecidableEq, Repr

/-- The hook of a program that has installed nothing. -/
def Hook.initial : Hook := ⟨.standard, []⟩

/-- `Host`: the state that all allocators of a program share. -/
structure Host where
  memory : Memory
  /-- The last identity taken. -/
  lastId : Nat
  hook : Hook
  journal : List Note
deriving Repr

/-- The host at the start of a program. -/
def Host.initial : Host := ⟨.empty, 0, .initial, []⟩

/-- The leak handler that is installed. -/
abbrev Host.handler (h : Host) : Handler := h.hook.handler

/-! ## Actions -/

/-- An operation on the host alone. -/
abbrev HostAction (α : Type) := EStateM Fault Host α

/-- `Action σ α`: an operation on a state `σ` and the host. -/
abbrev Action (σ α : Type) := EStateM Fault (σ × Host) α

namespace Action

variable {σ τ α β : Type}

/-- The own state. -/
def self : Action σ σ := fun (s, h) => .ok s (s, h)

/-- The own state is replaced. -/
def setSelf (s : σ) : Action σ Unit := fun (_, h) => .ok () (s, h)

/-- A host action leaves the own state alone. -/
def onHost (a : HostAction α) : Action σ α := fun (s, h) =>
  match a h with
  | .ok x h => .ok x (s, h)
  | .error f h => .error f (s, h)

instance : MonadLift (EStateM Fault Host) (EStateM Fault (σ × Host)) := ⟨onHost⟩

/-- An action on a part of the own state: `get` reads the part and `put` writes it back. -/
def zoom (get : τ → σ) (put : σ → τ → τ) (a : Action σ α) : Action τ α := fun (t, h) =>
  match a (get t, h) with
  | .ok x (s, h) => .ok x (put s t, h)
  | .error f (s, h) => .error f (put s t, h)

/-- An action on the first of two states. -/
def onFirst (a : Action σ α) : Action (σ × τ) α := zoom Prod.fst (fun s st => (s, st.2)) a

/-- An action on the second of two states. -/
def onSecond (a : Action τ α) : Action (σ × τ) α := zoom Prod.snd (fun t st => (st.1, t)) a

/-- An action with a given own state, whose end is dropped. -/
def withState (s : σ) (a : Action σ α) : HostAction α := fun h =>
  match a (s, h) with
  | .ok x (_, h) => .ok x h
  | .error f (_, h) => .error f h

/-- The outcome of an action as a value.  A fatal fault is not caught. -/
def attempt {σ : Type} (a : EStateM Fault σ α) : EStateM Fault σ (Except Fault α) := fun s =>
  match a s with
  | .ok x s => .ok (.ok x) s
  | .error f s => if f.isFatal then .error f s else .ok (.error f) s

/-- `body`, and `cleanup` after it however it ends.  A fault of the body comes out after the
    cleanup; a second fault on top of it is fatal, and after a fatal fault nothing is run. -/
def ensuring (body : Action σ α) (cleanup : Action σ Unit) : Action σ α := fun s =>
  match body s with
  | .ok x s =>
    match cleanup s with
    | .ok () s => .ok x s
    | .error f s => .error f s
  | .error f s =>
    if f.isFatal then .error f s
    else match cleanup s with
      | .ok () s => .error f s
      | .error g s => .error (if g.isFatal then g else .doubleFault f g) s

/-- A value that a check lets through. -/
def check (result : Except Fault α) : Action σ α := fun s =>
  match result with
  | .ok x => .ok x s
  | .error f => .error f s

instance : MonadLift (Except Fault) (EStateM Fault (σ × Host)) := ⟨check⟩

end Action

namespace Host

/-! ## Journal, identities -/

/-- A note is added to the journal. -/
def note (n : Note) : HostAction Unit :=
  modify fun h => { h with journal := h.journal ++ [n] }

/-- An event is emitted. -/
def emit (e : Event) : HostAction Unit := note (.event e)

/-- The next identity is taken. -/
def freshId : HostAction AllocatorId := do
  let h ← get
  set { h with lastId := h.lastId + 1 }
  return ⟨h.lastId + 1⟩

/-! ## Regions -/

/-- A region is made and noted; the result is its number and its base. -/
def makeRegion (p : Platform) (layout : Layout) : HostAction (Nat × Nat) := do
  let h ← get
  match p.placeRegion h.memory.outline layout with
  | none => throw (.heapExhausted layout.size layout.alignment)
  | some base =>
    let scrap := p.scrap h.memory.nextRegion
    set { h with memory := h.memory.addRegion base layout scrap }
    note (.made h.memory.nextRegion layout.size)
    return (h.memory.nextRegion, base)

/-- A region is freed and the fact noted. -/
def freeRegion (number : Nat) : HostAction Unit := do
  modify fun h => { h with memory := h.memory.freeRegion number }
  note (.freed number)

/-- Bytes of a region are overwritten. -/
def fill (number offset length : Nat) (byte : UInt8) : HostAction Unit :=
  modify fun h => { h with memory := h.memory.fill number offset length byte }

/-! ## The leak hook -/

/-- The host with another handler installed. -/
def installed (h : Host) (next : Handler) : Host :=
  { h with hook := { h.hook with handler := next } }

/-- A handler is installed in place of the one that is returned. -/
def install (next : Handler) : HostAction Handler := do
  let h ← get
  set (h.installed next)
  return h.handler

/-- What handlers have kept is replaced. -/
def keep (memo : Memo) : HostAction Unit :=
  modify fun h => { h with hook := { h.hook with memo := memo } }

/-- A conduct is carried out; `report` is what a report inside it does. -/
def carryOut (report : AllocatorInfo → Nat → HostAction Unit) : Conduct → HostAction Unit
  | .done => pure ()
  | .write n rest => do
    note n
    carryOut report rest
  | .install next rest => do
    let previous ← install next
    carryOut report (rest previous)
  | .report who amount rest => do
    report who amount
    carryOut report rest
  | .consult rest => do
    let h ← get
    carryOut report (rest h.hook.memo)
  | .keep memo rest => do
    keep memo
    carryOut report rest
  | .refuse text => throw (.raised text)

/-- A handler is called, and the fact noted.  Reports that it makes go to the handler installed by
    then, and may nest `depth` deep. -/
def call (p : Platform) (depth : Nat) (handler : Handler) (who : AllocatorInfo) (amount : Nat) :
    HostAction Unit :=
  match depth with
  | 0 => throw .endlessReport
  | depth + 1 => do
    note (.leak handler who amount)
    carryOut
      (fun who amount => do
        let h ← get
        call p depth h.handler who amount)
      (p.conductOf handler who amount)

/-- A leak is reported to the installed handler. -/
def reportLeak (p : Platform) (who : AllocatorInfo) (amount : Nat) : HostAction Unit := do
  let h ← get
  call p p.reportDepth h.handler who amount

end Host

end StackArena
