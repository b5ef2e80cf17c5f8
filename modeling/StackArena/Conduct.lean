/-
  What leak handlers do.

  A handler is known by its name; what it does when a report reaches it is its `Conduct`, a
  sequence of moves.  A handler may write to the journal, install another handler (and is told
  which one was there), report in turn, or refuse the report by stopping.  It may also keep
  something from one report to the next: how often it was called, say, or that it is at work
  already.  The moves are data: the code that carries them out, and what a name stands for, is in
  `Host`.
-/
import StackArena.Journal

namespace StackArena

/-- `Memo`: what handlers keep from one report to the next, numbers under names. -/
abbrev Memo := List (String × Nat)

/-- `Conduct`: what is done about a report, move by move. -/
inductive Conduct where
  /-- Nothing more. -/
  | done
  /-- Write a note, then go on. -/
  | write (note : Note) (rest : Conduct)
  /-- Install a handler, then go on with the one that it replaces. -/
  | install (next : Handler) (rest : Handler → Conduct)
  /-- Report to the installed handler, then go on. -/
  | report (who : AllocatorInfo) (amount : Nat) (rest : Conduct)
  /-- Go on with what handlers have kept. -/
  | consult (rest : Memo → Conduct)
  /-- Keep something else instead, then go on. -/
  | keep (memo : Memo) (rest : Conduct)
  /-- Stop. -/
  | refuse (text : String)

namespace Conduct

/-- The standard handler warns and does nothing else. -/
def warn (who : AllocatorInfo) (amount : Nat) : Conduct :=
  .write (.event (.leaked who amount)) .done

end Conduct

end StackArena
