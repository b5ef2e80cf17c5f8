/-
  The platform of a session.

  Memory is placed by the simple heap of `Placement`, with given skews, and holds zeros at first.
  There are a few leak handlers to choose from, each with a conduct that shows something about the
  leak hook.
-/
import StackArena.Host
import StackArena.Memory.Placement

namespace StackArena.Session

/-- The leak handlers of a session, by name: `swap` hands over to another handler, `nest` does so
    for the length of a report of its own, `panic` stops, and all others do nothing. -/
def conduct (name : String) (who : AllocatorInfo) (amount : Nat) : Conduct :=
  match name with
  | "swap" => .install (.named "A") fun _ => .done
  | "nest" => .install (.named "A") fun previous =>
    .report ⟨"nested", who.id⟩ (amount / 2) (.install previous fun _ => .done)
  | "panic" => .refuse s!"handler refused {amount}"
  | _ => .done

/-- The platform of a session. -/
def platform (build : Build) (skews : List Nat) : Platform where
  build := build
  placeRegion := Placement.region skews
  placeChunk := Placement.chunk
  scrap := fun _ => ⟨[]⟩
  conduct := conduct
  reportDepth := 64

end StackArena.Session
