/-
  Running a session.

  Commands are carried out one after the other, and each adds a step.  A fault is the answer to
  its command.  Inside a scope it may also leave the scope: the guard is dropped on the way, and
  the scope's own last step has the fault for an answer, unless the scope lets it go on to the
  scope around it.  When the commands are over, what is left in the slots is discarded.
-/
import StackArena.Session.Operation.OnTarget

namespace StackArena.Session

/-! ## Inside a scope -/

/-- A step about the stack that the scope is on. -/
def recordInside (path : List Nat) (answer : Answer) : Action (Stack × Session) Unit := do
  let status ← statusHere .stack
  Action.onSecond (record path answer (some status))

mutual

/-- A command inside a scope.  A fault comes out of it only if it is to leave the scope. -/
def Command.runInside (p : Platform) (path : List Nat) :
    Command → Action (Guard × Stack × Session) Unit
  | .act _ bubbles op => do
    let outcome ← Action.attempt (inside p op)
    Action.onSecond (recordInside path (.ofOutcome outcome))
    match outcome with
    | .error fault => if bubbles || op.raises then throw fault
    | .ok _ => pure ()
  | .guarded _ catches body => Action.onSecond do
    recordInside path .entered
    match ← Action.attempt (Guard.scope p (runAllInside p path 0 body)) with
    | .ok () => recordInside path .left
    | .error fault => if catches then recordInside path (.faulted fault) else throw fault

/-- Commands inside a scope, numbered from `i` on. -/
def runAllInside (p : Platform) (path : List Nat) (i : Nat) :
    List Command → Action (Guard × Stack × Session) Unit
  | [] => pure ()
  | c :: rest => do
    c.runInside p (path ++ [i])
    runAllInside p path (i + 1) rest

end

/-! ## Outside of every scope -/

/-- A scope on a target.  No fault goes further than this. -/
def runScope (p : Platform) (path : List Nat) (body : List Command) :
    (t : Tree) → Action (t.State × Session) Unit
  | .stack => show Action (Stack × Session) Unit from do
    recordInside path .entered
    match ← Action.attempt (Guard.scope p (runAllInside p path 0 body)) with
    | .ok () => recordInside path .left
    | .error fault => recordInside path (.faulted fault)
  | t => do
    let status ← statusHere t
    Action.onSecond (record path (.refusal .notAStack) (some status))

/-- A command outside of every scope. -/
def Command.run (p : Platform) (path : List Nat) : Command → Action Session Unit
  | .act target _ (.onSession g) => do
    let outcome ← Action.attempt (onSession p g)
    let status ← if (Operation.onSession g).moves then pure none else statusOf target
    record path (.ofOutcome outcome) status
  | .act target _ op => do
    let outcome ← withTarget target fun t => Action.attempt (outside p t op)
    let answer := match outcome with
      | some outcome => .ofOutcome outcome
      | none => .refusal .noTarget
    record path answer (← statusOf target)
  | .guarded target _ body => do
    match ← withTarget target (runScope p path body) with
    | some () => pure ()
    | none => record path (.refusal .noTarget) none

/-- Commands outside of every scope, numbered from `i` on. -/
def runAll (p : Platform) (i : Nat) : List Command → Action Session Unit
  | [] => pure ()
  | c :: rest => do
    c.run p [i]
    runAll p (i + 1) rest

/-! ## The whole -/

/-- What is left in the slots is discarded, each slot with a step that is numbered after all
    commands. -/
def close (p : Platform) (commands : Nat) : List Nat → Action Session Unit
  | [] => pure ()
  | slot :: rest => do
    let s ← Action.self
    if (s.slot? slot).isSome then
      let outcome ← Action.attempt (discard p slot)
      record [commands + slot] (.ofOutcome outcome) none
    close p commands rest

/-- A session from its first command to the end of its last allocator. -/
def run (p : Platform) (commands : List Command) : Except Fault (List Step) :=
  let whole : Action Session Unit := do
    runAll p 0 commands
    let s ← Action.self
    close p commands.length (List.range s.slots.length)
  match whole (.initial, .initial) with
  | .ok () (s, _) => .ok s.steps
  | .error fault _ => .error fault

end StackArena.Session
