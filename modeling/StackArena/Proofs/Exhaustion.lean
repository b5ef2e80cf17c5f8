/-
  What a stack says when it declines.

  A stack that is asked as a provider does not grow.  It declines with two numbers: what was
  requested, and what is available.  The first is the bare size, although it is the padding and the
  size together that have to fit (`Block.needed`).

  1. **Fit** — a block has no span for a request exactly if it needs more than is free
     (`Block.span?_eq_none_iff`).
  2. **The two numbers** — `exhausted_tells` says what they are, in every state of every run, and
     when they explain that the request was declined: when the size alone is more than what is free.
     A request for which only the padding is too much is declined with two numbers that would
     fit (`exhausted_would_fit`).
-/
import StackArena.Proofs.Appending

namespace StackArena

namespace Block

/-! ## Fit -/

/-- Bytes that a request needs at the cursor, with its padding. -/
def needed (blk : Block) (r : Request) : Nat :=
  Alignment.padding (blk.base + blk.cursor) r.alignment + r.size

/-- **A request does not fit exactly if it needs more than is free.**  Sums that are no word are
    more than any block has. -/
theorem span?_eq_none_iff {blk : Block} {r : Request}
    (hbound : blk.base + blk.capacity < Word.count) :
    blk.span? r = none ↔ blk.capacity - blk.cursor < blk.needed r := by
  rw [span?, Word.add?]
  change Option.filter _ (if blk.needed r < Word.count then some (blk.needed r) else none) = none ↔ _
  by_cases hword : blk.needed r < Word.count
  · rw [if_pos hword, Option.filter_some, ite_eq_right_iff]
    simp only [decide_eq_true_eq, reduceCtorEq, imp_false, Nat.not_le]
  · rw [if_neg hword]
    refine iff_of_true rfl ?_
    omega

end Block

namespace Stack

variable {p : Platform} {gap : Nat} {r : Request} {s : Stack} {h : Host}

/-! ## The two numbers -/

/-- A stack that is asked as a provider serves the request, or declines with the bare size. -/
theorem offer_cases (hset : Settled gap s h) (hb : p.build = .debug → s.Balanced)
    (hvalid : Alignment.isValid r.alignment = true) :
    (s.current.needed r ≤ s.current.capacity - s.current.cursor ∧
      ∃ a st, offer p r (s, h) = .ok (.ok a) st) ∨
    (s.current.capacity - s.current.cursor < s.current.needed r ∧
      offer p r (s, h)
        = .ok (.error (.exhausted r.size (s.current.capacity - s.current.cursor))) (s, h)) := by
  have hbound := hset.wellFormed.bounded _ s.current_mem_blocks
  rw [offer, hvalid, Bool.not_true, if_neg Bool.false_ne_true]
  rcases tryAllocate_cases hset hb hvalid with ⟨hsome, a, blk, o, h', htry, -⟩ |
    ⟨hnone, htry⟩
  · have hfits := Nat.not_lt.1 (mt (Block.span?_eq_none_iff hbound).2 hsome)
    exact Or.inl ⟨hfits, a, _, Action.bind_of_ok htry⟩
  · refine Or.inr ⟨(Block.span?_eq_none_iff hbound).1 hnone, (Action.bind_of_ok htry).trans ?_⟩
    have hfree : s.capacityLeft p.build = .ok (s.current.capacity - s.current.cursor) :=
      p.build.sub_of_le hset.wellFormed.current_le
    show ((liftM (s.capacityLeft p.build) : Action Stack Nat) >>= _) _ = _
    rw [hfree, Action.check_bind]
    rfl

end Stack

namespace World

open Stack

variable {p : Platform} {gap i : Nat} {w : World} {t : Tenancy} {r : Request}

/-- **The numbers with which a stack declines.**  In every state of every run, for every size and
    every power of two, a stack that is asked as a provider declines exactly if the request needs
    more than is free, padding included, and then it has done nothing.  Of the numbers
    1. the second is what is free, and less than what the request needs;
    2. the first is the bare size: it is what the request needs exactly if there is no padding, and
       it is more than the second exactly if the size alone is more than what is free. -/
theorem exhausted_tells (hp : p.Sound gap) (hw : Reachable p w) (hat : w.at? i = some t)
    (hvalid : Alignment.isValid r.alignment = true) :
    ((∃ cause st, (Stack.provider p).tryAllocate r (t.stack, w.host) = .ok (.error cause) st) ↔
      t.stack.current.capacity - t.stack.current.cursor < t.stack.current.needed r) ∧
    ∀ cause st, (Stack.provider p).tryAllocate r (t.stack, w.host) = .ok (.error cause) st →
      st = (t.stack, w.host) ∧ ∃ requested available, cause = .exhausted requested available ∧
        available = t.stack.current.capacity - t.stack.current.cursor ∧
        available < t.stack.current.needed r ∧ requested = r.size ∧
        (requested = t.stack.current.needed r ↔
          Alignment.padding (t.stack.current.base + t.stack.current.cursor) r.alignment = 0) ∧
        (available < requested ↔
          t.stack.current.capacity - t.stack.current.cursor < r.size) := by
  have hset := (hw.sound hp).settled i t hat
  have hneeded : r.size = t.stack.current.needed r ↔
      Alignment.padding (t.stack.current.base + t.stack.current.cursor) r.alignment = 0 := by
    unfold Block.needed
    omega
  show ((∃ cause st, offer p r (t.stack, w.host) = .ok (.error cause) st) ↔ _) ∧
    ∀ cause st, offer p r (t.stack, w.host) = .ok (.error cause) st → _
  rcases offer_cases hset (hw.balanced_of_debug hp hat) hvalid with
    ⟨hfits, a, st, hserved⟩ | ⟨hshort, hdeclined⟩
  · have hnever : ∀ cause st', offer p r (t.stack, w.host) ≠ .ok (.error cause) st' := by
      intro cause st' hrun
      cases hserved.symm.trans hrun
    refine ⟨iff_of_false ?_ (Nat.not_lt.2 hfits), fun cause st' hrun => absurd hrun (hnever _ _)⟩
    rintro ⟨cause, st', hrun⟩
    exact hnever cause st' hrun
  · refine ⟨iff_of_true ⟨_, _, hdeclined⟩ hshort, ?_⟩
    intro cause st hrun
    cases hdeclined.symm.trans hrun
    exact ⟨rfl, _, _, rfl, rfl, hshort, rfl, hneeded, Iff.rfl⟩

/-- A stack with all bytes but four in use. -/
def fourLeft : List Call := [.make (.sized .debug 64), .on 0 (.allocate .plain ⟨60, 1⟩)]

/-- Eight bytes are declined there, and the size alone explains it. -/
theorem exhausted_tells_eight :
    ∃ t st, (run (Session.platform .debug []) initial fourLeft).at? 0 = some t ∧
      Alignment.isValid 1 = true ∧
      (Stack.provider (Session.platform .debug [])).tryAllocate ⟨8, 1⟩
          (t.stack, (run (Session.platform .debug []) initial fourLeft).host)
        = .ok (.error (.exhausted 8 4)) st := by
  have hp : (Session.platform .debug []).Sound 1 :=
    Session.platform_sound .debug (by nofun) (by decide)
  have hvalid : Alignment.isValid 1 = true := by decide
  have hlook : ((run (Session.platform .debug []) initial fourLeft).at? 0).map (fun t =>
      (t.stack.current.capacity - t.stack.current.cursor, t.stack.current.needed ⟨8, 1⟩))
      = some (4, 8) := by decide +kernel
  obtain ⟨t, hat, hblock⟩ := Option.map_eq_some_iff.1 hlook
  obtain ⟨hfree, hneeded⟩ := Prod.mk.inj hblock
  have hw : Reachable (Session.platform .debug [])
      (run (Session.platform .debug []) initial fourLeft) := ⟨fourLeft, rfl⟩
  obtain ⟨hdeclines, hnumbers⟩ := exhausted_tells hp hw hat (r := ⟨8, 1⟩) hvalid
  obtain ⟨cause, st, hrun⟩ := hdeclines.2 (by rw [hfree, hneeded]; decide)
  obtain ⟨-, requested, available, rfl, havailable, -, rfl, -, -⟩ := hnumbers cause st hrun
  rw [havailable, hfree] at hrun
  exact ⟨t, st, hat, hvalid, hrun⟩

/-- A stack with one byte in use. -/
def oneTaken : List Call := [.make (.sized .debug 64), .on 0 (.allocate .plain ⟨1, 1⟩)]

/-- **A request may be declined with numbers that would fit.**  Fifty bytes at an alignment of
    sixteen need 65 bytes after that byte, and 63 are free; what the stack says is that fifty are
    requested. -/
theorem exhausted_would_fit :
    ∃ t, (run (Session.platform .debug []) initial oneTaken).at? 0 = some t ∧
      Alignment.isValid 16 = true ∧ t.stack.current.needed ⟨50, 16⟩ = 65 ∧
      (Action.after ((Stack.provider (Session.platform .debug [])).tryAllocate ⟨50, 16⟩)
          (t.stack, (run (Session.platform .debug []) initial oneTaken).host)).1.toOption
        = some (.error (.exhausted 50 63)) ∧ ¬63 < 50 := by
  have hlook : ((run (Session.platform .debug []) initial oneTaken).at? 0).map (fun t =>
      (t.stack.current.needed ⟨50, 16⟩,
        (Action.after ((Stack.provider (Session.platform .debug [])).tryAllocate ⟨50, 16⟩)
          (t.stack, (run (Session.platform .debug []) initial oneTaken).host)).1.toOption))
      = some (65, some (.error (.exhausted 50 63))) := by decide +kernel
  obtain ⟨t, hat, hboth⟩ := Option.map_eq_some_iff.1 hlook
  obtain ⟨hneeded, hdeclined⟩ := Prod.mk.inj hboth
  exact ⟨t, hat, by decide, hneeded, hdeclined, by decide⟩

end World

end StackArena
