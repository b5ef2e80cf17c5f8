/-
  Where an unwind leads whatever marker it is given.

  A release build checks no marker.  Of a wrong one it takes what it can: the depth, the offset and
  the count are each cut down to what the stack has, one without regard to the others.

  1. **Never forward** — the stack falls (`FallsTo`): its older blocks are left as they are, but for
     the cursor of the newest of them, which does not move on.  The block that the stack was made
     with lies at the bottom for good, and an unwind to the bottom leaves that block alone, empty,
     with nothing to report (`unwind_never_forward`).
  2. **Not always nowhere** — of a marker that lies ahead of the stack the offset still counts,
     though it was taken in a block that is gone.  `unwind_ahead_iff` says exactly when nothing
     changes, and when no grant is lost; `unwind_ahead_cuts` is a run in which one is cut.
-/
import StackArena.Proofs.Cutting

namespace StackArena

namespace Stack

variable {p : Platform} {gap : Nat} {s₀ s s' : Stack} {h h' : Host} {m : Marker}

/-! ## Falling -/

/-- `s.FallsTo s'`: what is left of `s` are its older blocks, with the cursor of the newest of them
    where it was or further back. -/
def FallsTo (s s' : Stack) : Prop :=
  ∃ newer blk older cursor, s.active = newer ++ blk :: older ∧
    s'.active = { blk with cursor } :: older ∧ cursor ≤ blk.cursor

/-- **Whatever the marker, a stack falls.** -/
theorem unwound_falls (m : Marker) (s : Stack) : s.FallsTo (s.unwound m) := by
  obtain ⟨blk, rest, hdrop, hcurrent, hbelow⟩ := s.active_unwound m
  refine ⟨s.active.take (s.surplus m.depth), blk, rest, min m.offset blk.cursor, ?_, ?_, ?_⟩
  · rw [← hdrop, List.take_append_drop]
  · rw [active, hcurrent, hbelow]
  · exact Nat.min_le_right _ _

theorem FallsTo.blockCount_le (hfalls : s.FallsTo s') : s'.blockCount ≤ s.blockCount := by
  obtain ⟨newer, blk, older, cursor, hactive, hactive', -⟩ := hfalls
  have hlength := congrArg List.length hactive
  have hlength' := congrArg List.length hactive'
  simp only [active, List.length_append, List.length_cons] at hlength hlength'
  unfold blockCount
  omega

theorem FallsTo.volume_le (hfalls : s.FallsTo s') : s'.volume ≤ s.volume := by
  obtain ⟨newer, blk, older, cursor, hactive, hactive', -⟩ := hfalls
  simp only [volume, hactive, hactive', List.map_append, List.map_cons, List.sum_append,
    List.sum_cons]
  omega

/-- A block at the very bottom stays there. -/
theorem FallsTo.above (hfalls : s.FallsTo s') (hfloor : s₀.below = []) (ha : Above s₀ s) :
    Above s₀ s' := by
  obtain ⟨newer, blk, older, cursor, hactive, hactive', -⟩ := hfalls
  obtain ⟨newer₀, cursor₀, hactive₀⟩ := ha
  have hlast := congrArg List.getLast? (hactive.symm.trans hactive₀)
  rw [hfloor] at hlast
  -- What is left ends with the block that fell, or with the block that the whole list ends with.
  rcases List.eq_nil_or_concat older with rfl | ⟨older, last, rfl⟩
  · have hblk : blk = { s₀.current with cursor := cursor₀ } := by simpa using hlast
    refine ⟨[], cursor, ?_⟩
    rw [hactive', hblk, hfloor]
    rfl
  · have hend : last = { s₀.current with cursor := cursor₀ } := by
      simpa [List.concat_eq_append, List.getLast?_cons] using hlast
    refine ⟨{ blk with cursor } :: older, cursor₀, ?_⟩
    rw [hactive', hend, hfloor, List.concat_eq_append]
    rfl

/-- A change leaves the block at the very bottom where it is. -/
theorem Change.above_floor {known : Marker → Prop} (hfloor : s₀.below = []) (ha : Above s₀ s)
    (hchange : Change p known s h s' h') : Above s₀ s' := by
  cases hchange with
  | still => exact ha
  | served hserves => exact hserves.above ha
  | @unwound m => exact (unwound_falls m s).above hfloor ha
  | shrunk => exact ha

/-! ## Unwinding to the bottom -/

/-- **An unwind to the bottom** leaves the oldest block, and nothing in it. -/
theorem unwound_bottom (hs : s.WellFormed) : ∃ newer oldest, s.active = newer ++ [oldest] ∧
    (s.unwound s.bottom).active = [oldest.reset] ∧ (s.unwound s.bottom).outstanding = 0 := by
  obtain ⟨newer, oldest, hactive, hbottom⟩ := hs.rooted
  have hdepth : ([] : List Block).length + 1 = s.bottom.depth := by rw [hbottom]; rfl
  obtain ⟨hcurrent, hbelow⟩ := unwound_of_split hactive hdepth
  have hoffset : s.bottom.offset = 0 := by rw [hbottom]
  have hcount : s.bottom.outstanding = 0 := by rw [hbottom]
  refine ⟨newer, oldest, hactive, ?_, ?_⟩
  · rw [active, hcurrent, hbelow, hoffset, Nat.zero_min]
    rfl
  · show min s.bottom.outstanding s.outstanding = 0
    rw [hcount, Nat.zero_min]

/-- On the block that a stack was made with, that is the oldest one. -/
theorem active_unwound_bottom (hs : s.WellFormed) (hfloor : s₀.below = [])
    (hempty : s₀.current.cursor = 0) (ha : Above s₀ s) :
    (s.unwound s.bottom).active = [s₀.current] := by
  obtain ⟨newer, oldest, hactive, hdone, -⟩ := unwound_bottom hs
  obtain ⟨newer₀, cursor, hactive₀⟩ := ha
  rw [hfloor] at hactive₀
  have hlast := congrArg List.getLast? (hactive.symm.trans hactive₀)
  have holdest : oldest = { s₀.current with cursor } := by simpa using hlast
  rw [hdone, holdest, Block.reset, ← hempty]

theorem journal_withoutBlocks (h : Host) (blks : List Block) :
    (h.withoutBlocks blks).journal = h.journal ++ blks.map fun blk => .freed blk.region := by
  induction blks generalizing h with
  | nil => exact (List.append_nil _).symm
  | cons blk rest ih =>
    have hstep : (h.withoutBlocks (blk :: rest)).journal
        = ((h.withoutRegion blk.region).withoutBlocks rest).journal := rfl
    rw [hstep, ih, Host.withoutRegion, List.append_assoc, List.map_cons]
    rfl

/-- A stack with nothing outstanding comes to its end without a report: its blocks are freed, and
    that is all. -/
theorem discard_of_zero (p : Platform) (h : Host) (hzero : s.outstanding = 0) :
    discard p (s, h) = .ok () (s, h.withoutBlocks (s.active.reverse ++ s.cache.reverse)) := by
  have hquiet : reportLeaks p (s, h) = .ok s.outstanding (s, h) := by
    rcases reportLeaks_cases p s h with ⟨-, hquiet⟩ | ⟨hsome, -⟩
    · exact hquiet
    · exact absurd hzero hsome
  obtain ⟨out, h₁, hreport, -, ⟨f, rfl, -, -⟩ | ⟨-, hrun⟩⟩ := discard_cases p s h
  · rw [Action.after_of_ok hquiet] at hreport
    nomatch hreport
  · rw [Action.after_of_ok hquiet] at hreport
    cases hreport
    exact Action.ok_of_after hrun

/-! ## Markers that lie ahead -/

/-- The marker is of the stack, but lies ahead of where it stands: it counts more blocks than there
    are, or it is of the current block and further on than the cursor. -/
def Ahead (s : Stack) (m : Marker) : Prop :=
  m.stack = s.id ∧ (s.blockCount < m.depth ∨
    (m.depth = s.blockCount ∧ m.serial = s.current.serial ∧ s.current.cursor < m.offset))

instance (s : Stack) (m : Marker) : Decidable (s.Ahead m) :=
  inferInstanceAs (Decidable (_ ∧ (_ ∨ (_ ∧ _ ∧ _))))

/-- A marker that lies ahead takes off no block; its offset and its count are taken all the same. -/
theorem unwound_of_ahead (hahead : s.Ahead m) : s.unwound m = { s with
    current := { s.current with cursor := min m.offset s.current.cursor }
    outstanding := min m.outstanding s.outstanding } := by
  have hnone : s.surplus m.depth = 0 := by
    rcases hahead.2 with hdeep | ⟨hdepth, -, -⟩
    · unfold surplus keptDepth
      omega
    · unfold surplus keptDepth
      omega
  rw [unwound, hnone]
  rfl

/-- Nothing changes just when neither the cursor nor the count is beyond the marker. -/
theorem unwound_eq_self_iff (hahead : s.Ahead m) :
    s.unwound m = s ↔ s.current.cursor ≤ m.offset ∧ s.outstanding ≤ m.outstanding := by
  rw [unwound_of_ahead hahead]
  constructor
  · intro heq
    have hcursor : min m.offset s.current.cursor = s.current.cursor :=
      congrArg (fun t => t.current.cursor) heq
    have hcount : min m.outstanding s.outstanding = s.outstanding := congrArg Stack.outstanding heq
    omega
  · rintro ⟨hcursor, hcount⟩
    rw [Nat.min_eq_right hcursor, Nat.min_eq_right hcount]

end Stack

namespace Tenancy

open Stack

variable {t : Tenancy} {h : Host} {m : Marker}

/-- Of the grants that are live, an unwind to a marker that lies ahead keeps those in the current
    block that end at or before its offset, and all in other blocks. -/
theorem holds_unwound_iff (ht : t.Tidy) (hl : Lodged h.memory t.stack) (hahead : t.stack.Ahead m)
    {g : Grant} (hg : g ∈ t.live) :
    (t.stack.unwound m).holds g = true ↔ (g.region = t.stack.current.region →
      g.limit ≤ t.stack.current.base + m.offset) := by
  obtain ⟨blk, hblk, hregion, -, hhi⟩ := ht.placed g hg
  have hactive : (t.stack.unwound m).active =
      { t.stack.current with cursor := min m.offset t.stack.current.cursor } :: t.stack.below := by
    rw [unwound_of_ahead hahead]
    rfl
  rw [holds_iff, hactive]
  constructor
  · rintro ⟨blk', hblk', hregion', hhi'⟩ hcurrent
    have hsame : blk'.base + blk'.cursor ≤ t.stack.current.base + m.offset := by
      rcases List.mem_cons.1 hblk' with rfl | hold
      · show t.stack.current.base + min m.offset t.stack.current.cursor ≤ _
        omega
      · -- A block below has another region than the current one.
        have hone := hl.eq_of_region_eq (List.mem_cons_of_mem _ hold) t.stack.current_mem_active
          (hregion'.trans hcurrent)
        have hdistinct := hl.distinct
        rw [regions, blocks, active, List.cons_append, List.map_cons] at hdistinct
        have hnot := (List.nodup_cons.1 hdistinct).1
        refine absurd ?_ hnot
        rw [← hone]
        exact List.mem_map_of_mem (List.mem_append_left _ hold)
    omega
  · intro hin
    rcases List.mem_cons.1 hblk with rfl | hold
    · have hle := hin hregion.symm
      refine ⟨_, List.mem_cons_self, hregion, ?_⟩
      show g.limit ≤ t.stack.current.base + min m.offset t.stack.current.cursor
      omega
    · exact ⟨blk, List.mem_cons_of_mem _ hold, hregion, hhi⟩

end Tenancy

namespace World

open Stack

variable {p : Platform} {gap i : Nat} {w : World} {t : Tenancy}

/-! ## What a stack was made as -/

/-- `MadeAs p w i s₀`: a run leads to `w` in which the stack in slot `i` was made as `s₀`. -/
def MadeAs (p : Platform) (w : World) (i : Nat) (s₀ : Stack) : Prop :=
  ∃ cs c ds base, w = run p initial (cs ++ .make c :: ds) ∧
    i = (run p initial cs).slots.length ∧ s₀ = newborn c (run p initial cs).host base ∧
    (run p initial (cs ++ [.make c])).at? i = some (.new s₀)

theorem MadeAs.step {s₀ : Stack} (hmade : MadeAs p w i s₀) (d : Call) :
    MadeAs p (w.step p d) i s₀ := by
  obtain ⟨cs, c, ds, base, hrun, hrest⟩ := hmade
  refine ⟨cs, c, ds ++ [d], base, ?_, hrest⟩
  rw [hrun, ← run_concat, List.append_assoc, List.cons_append]

/-- Every stack was made at some point of the run, and stands on the block that it was made with. -/
theorem Reachable.made_as (hp : p.Sound gap) (hw : Reachable p w) (hat : w.at? i = some t) :
    ∃ s₀, MadeAs p w i s₀ ∧ Above s₀ t.stack := by
  obtain ⟨cs, rfl⟩ := hw
  induction cs using List.reverseRecOn generalizing i t with
  | nil => exact absurd hat (not_at?_initial i t)
  | append_singleton cs c ih =>
    have hearlier : ∀ {j u}, (World.run p initial cs).at? j = some u →
        ∃ s₀, MadeAs p (World.run p initial (cs ++ [c])) j s₀ ∧ Above s₀ u.stack := by
      intro j u hu
      obtain ⟨s₀, hmade, habove⟩ := ih hu
      rw [run_concat]
      exact ⟨s₀, hmade.step c, habove⟩
    have hsound := (Sound.initial gap).run hp cs
    have hat' := hat
    rw [run_concat] at hat'
    have hstep := step_spec p (World.run p initial cs) c
    generalize (World.run p initial cs).step p c = w' at hstep hat'
    cases hstep with
    | idle => exact hearlier hat'
    | hosted => exact hearlier hat'
    | made =>
      rcases at?_enroll.1 hat' with hold | ⟨rfl, rfl⟩
      · exact hearlier hold
      · exact ⟨_, ⟨cs, _, [], _, rfl, rfl, rfl, hat⟩, Above.refl _⟩
    | @operated j op u hj =>
      rcases (at?_set (lt_of_at? hj)).1 hat' with ⟨rfl, heq⟩ | ⟨-, hold⟩
      · cases heq
        obtain ⟨s₀, hmade, habove⟩ := hearlier hj
        have hfloor : s₀.below = [] := by
          obtain ⟨_, _, _, _, _, _, rfl, _⟩ := hmade
          rfl
        exact ⟨s₀, hmade, (Tenancy.act_change hp (hsound.settled i u hj) _ op).above_floor
          hfloor habove⟩
      · exact hearlier hold
    | discarded hj => exact hearlier (at?_of_emptied (lt_of_at? hj) hat').2

/-! ## Never forward, and back to nothing -/

/-- **Unwinds never lead forward, and an unwind to the bottom heals.**  In every state that a run
    reaches, a release build takes any marker at all: it stops at nothing, and the stack falls, with
    no more blocks, capacity and outstanding bytes than before, on the block that it was made with,
    its capacity the sum of those of its blocks and no cursor beyond the end of its block.  In
    either build everything can be unwound; then the block that the stack was made with is all that
    is active, it is empty, nothing is outstanding, and the end of the stack makes no report. -/
theorem unwind_never_forward (hp : p.Sound gap) (hw : Reachable p w) (hat : w.at? i = some t) :
    ∃ s₀, MadeAs p w i s₀ ∧
      (p.build = .release → ∀ m, ∃ s' h', Stack.unwind p m (t.stack, w.host) = .ok () (s', h') ∧
        t.stack.FallsTo s' ∧ s'.blockCount ≤ t.stack.blockCount ∧
        s'.capacity ≤ t.stack.capacity ∧ s'.outstanding ≤ t.stack.outstanding ∧
        Above s₀ s' ∧ s'.capacity = (s'.active.map Block.capacity).sum ∧
        ∀ blk ∈ s'.active, blk.cursor ≤ blk.capacity) ∧
      ∃ s' h', Stack.unwindAll p (t.stack, w.host) = .ok () (s', h') ∧
        s'.active = [s₀.current] ∧ s₀.current.cursor = 0 ∧ s'.outstanding = 0 ∧
        s'.capacity = s₀.current.capacity ∧
        ∃ h'', Stack.discard p (s', h') = .ok () (s', h'') ∧
          h''.journal = h'.journal ++
            (s'.active.reverse ++ s'.cache.reverse).map fun blk => .freed blk.region := by
  have hset := (hw.sound hp).settled i t hat
  have hs := hset.wellFormed
  obtain ⟨s₀, hmade, habove⟩ := hw.made_as hp hat
  have hnewborn : s₀.below = [] ∧ s₀.current.cursor = 0 := by
    obtain ⟨_, _, _, _, _, _, rfl, _⟩ := hmade
    exact ⟨rfl, rfl⟩
  refine ⟨s₀, hmade, ?_, ?_⟩
  · intro hrelease m
    have hfalls := unwound_falls m t.stack
    have hs' := (unwound_moves (m := m) hset).settled.wellFormed
    refine ⟨_, _, unwind_of_accepted w.host hs (Or.inl hrelease), hfalls, hfalls.blockCount_le,
      ?_, Nat.min_le_right _ _, hfalls.above hnewborn.1 habove, hs'.capacity_eq,
      fun blk hblk => hs'.cursor_le blk (mem_blocks_of_active hblk)⟩
    rw [hs'.capacity_eq, hs.capacity_eq]
    exact hfalls.volume_le
  · have hrun : Stack.unwindAll p (t.stack, w.host)
        = .ok () (t.stack.unwound t.stack.bottom, t.stack.swept t.stack.bottom w.host) :=
      unwind_of_accepted w.host hs (Or.inr (bottom_accepted hs))
    have hactive := active_unwound_bottom hs hnewborn.1 hnewborn.2 habove
    obtain ⟨-, -, -, -, hzero⟩ := unwound_bottom hs
    have hcapacity := (unwound_moves (m := t.stack.bottom) hset).settled.wellFormed.capacity_eq
    rw [volume, hactive, List.map_singleton, List.sum_singleton] at hcapacity
    exact ⟨_, _, hrun, hactive, hnewborn.2, hzero, hcapacity, _, discard_of_zero p _ hzero,
      journal_withoutBlocks _ _⟩

/-- Calls of a release build that put the books out of step: a marker of a block that is gone is
    given to the stack when the region of the block is in use again. -/
def outOfStep : List Call :=
  [.make (.sized .release 64), .on 0 (.allocate .plain ⟨100, 1⟩), .on 0 .top, .on 0 .unwindAll,
    .on 0 (.allocate .plain ⟨64, 1⟩), .on 0 (.allocate .plain ⟨100, 1⟩), .on 0 (.unwind 1)]

/-- With books that are out of step, a marker of no stack at all makes the stack fall, and an unwind
    to the bottom puts everything right. -/
theorem unwind_never_forward_healed :
    ∃ t, (run (Session.platform .release []) initial outOfStep).at? 0 = some t ∧
      t.stack.outstanding = 100 ∧ t.stack.reserved = 164 ∧
      (∃ s' h', Stack.unwind (Session.platform .release []) ⟨⟨7⟩, 9, 3, 5, 1⟩ (t.stack,
        (run (Session.platform .release []) initial outOfStep).host) = .ok () (s', h') ∧
        t.stack.FallsTo s') ∧
      ∃ s' h', Stack.unwindAll (Session.platform .release []) (t.stack,
        (run (Session.platform .release []) initial outOfStep).host) = .ok () (s', h') ∧
        s'.outstanding = 0 := by
  have hp : (Session.platform .release []).Sound 1 :=
    Session.platform_sound .release (by nofun) (by decide)
  have hend : ((run (Session.platform .release []) initial outOfStep).at? 0).map
      (fun t => (t.stack.outstanding, t.stack.reserved)) = some (100, 164) := by decide +kernel
  obtain ⟨t, hat, hbooks⟩ := Option.map_eq_some_iff.1 hend
  obtain ⟨hout, hreserved⟩ := Prod.mk.inj hbooks
  obtain ⟨s₀, -, hany, s', h', hall, -, -, hzero, -⟩ := unwind_never_forward hp ⟨_, rfl⟩ hat
  obtain ⟨s'', h'', hrun, hfalls, -⟩ := hany rfl ⟨⟨7⟩, 9, 3, 5, 1⟩
  exact ⟨t, hat, hout, hreserved, ⟨s'', h'', hrun, hfalls⟩, s', h', hall, hzero⟩

/-! ## Markers ahead in a release build -/

/-- **When an unwind to a marker that lies ahead changes nothing.**  A release build takes such a
    marker.  Every block stays active, and nothing at all changes just when neither the cursor of
    the current block nor the count of outstanding bytes is beyond the marker; the live grants all
    survive just when none of those in the current block ends after the offset of the marker. -/
theorem unwind_ahead_iff (hp : p.Sound gap) (hrelease : p.build = .release) (hw : Reachable p w)
    (hat : w.at? i = some t) {m : Marker} (hahead : t.stack.Ahead m) :
    ∃ s' h', Stack.unwind p m (t.stack, w.host) = .ok () (s', h') ∧
      s'.active.map Block.region = t.stack.active.map Block.region ∧
      (s' = t.stack ↔
        t.stack.current.cursor ≤ m.offset ∧ t.stack.outstanding ≤ m.outstanding) ∧
      ((∀ g ∈ t.live, s'.holds g = true) ↔ ∀ g ∈ t.live,
        g.region = t.stack.current.region → g.limit ≤ t.stack.current.base + m.offset) := by
  have hset := (hw.sound hp).settled i t hat
  have hrun := unwind_of_accepted w.host hset.wellFormed (Or.inl hrelease : _ ∨
    t.stack.objection? m = none)
  have hholds := fun {g} => Tenancy.holds_unwound_iff (g := g) (hw.tidy hp hat) hset.lodged hahead
  refine ⟨_, _, hrun, ?_, unwound_eq_self_iff hahead, ?_⟩
  · rw [unwound_of_ahead hahead]
    rfl
  · constructor
    · intro hall g hg
      exact (hholds hg).1 (hall g hg)
    · intro hall g hg
      exact (hholds hg).2 (hall g hg)

/-- Forty bytes in the first block, and a marker at a hundred bytes in a second one that is gone:
    nothing changes. -/
theorem unwind_ahead_iff_beyond :
    ∃ t m s' h', (run (Session.platform .release []) initial
        [.make (.sized .release 64), .on 0 (.allocate .plain ⟨100, 1⟩), .on 0 .top,
          .on 0 .unwindAll, .on 0 (.allocate .plain ⟨40, 1⟩)]).at? 0 = some t ∧
      t.stack.Ahead m ∧ t.stack.outstanding = 40 ∧
      Stack.unwind (Session.platform .release []) m (t.stack, (run (Session.platform .release [])
        initial [.make (.sized .release 64), .on 0 (.allocate .plain ⟨100, 1⟩), .on 0 .top,
          .on 0 .unwindAll, .on 0 (.allocate .plain ⟨40, 1⟩)]).host) = .ok () (s', h') ∧
      s' = t.stack := by
  have hp : (Session.platform .release []).Sound 1 :=
    Session.platform_sound .release (by nofun) (by decide)
  have hend : ((run (Session.platform .release []) initial
      [.make (.sized .release 64), .on 0 (.allocate .plain ⟨100, 1⟩), .on 0 .top,
        .on 0 .unwindAll, .on 0 (.allocate .plain ⟨40, 1⟩)]).at? 0).any (fun t =>
      decide (t.stack.Ahead ⟨⟨1⟩, 2, 1, 100, 100⟩) && t.stack.outstanding == 40 &&
        decide (t.stack.current.cursor ≤ 100)) = true := by decide +kernel
  obtain ⟨t, hat, hboth⟩ := (Option.any_eq_true _ _).1 hend
  obtain ⟨hfirst, hcursor⟩ := Bool.and_eq_true_iff.1 hboth
  obtain ⟨hahead, hforty⟩ := Bool.and_eq_true_iff.1 hfirst
  have hout : t.stack.outstanding = 40 := beq_iff_eq.1 hforty
  obtain ⟨s', h', hrun, -, hsame, -⟩ := unwind_ahead_iff hp rfl ⟨_, rfl⟩ hat
    (of_decide_eq_true hahead)
  exact ⟨t, _, s', h', hat, of_decide_eq_true hahead, hout, hrun,
    hsame.2 ⟨of_decide_eq_true hcursor, by rw [hout]; decide⟩⟩

/-- A second block at eight bytes, where a marker is captured; then all is unwound, and forty bytes
    are served in the first block. -/
def eightAhead : World := run (Session.platform .release []) initial
  [.make (.sized .release 64), .on 0 (.allocate .plain ⟨64, 1⟩),
    .on 0 (.allocate .plain ⟨8, 1⟩), .on 0 .top, .on 0 .unwindAll,
    .on 0 (.allocate .plain ⟨40, 1⟩)]

/-- **An unwind to a marker that lies ahead can cut a grant.**  The eight bytes were taken in a
    block that is gone; they count as an offset in the first block all the same, where only eight of
    the forty bytes stay taken.  The books still count forty. -/
theorem unwind_ahead_cuts :
    ∃ t m s' h', eightAhead.at? 0 = some t ∧ m ∈ eightAhead.markers ∧ t.stack.Ahead m ∧
      Stack.unwind (Session.platform .release []) m (t.stack, eightAhead.host) = .ok () (s', h') ∧
      t.stack.current.cursor = 40 ∧ s'.current.cursor = 8 ∧ s'.outstanding = 40 ∧
      ∃ g ∈ t.live, s'.holds g = false ∧ ¬s'.Frees g := by
  have hp : (Session.platform .release []).Sound 1 :=
    Session.platform_sound .release (by nofun) (by decide)
  have hall : (eightAhead.at? 0).any (fun t => eightAhead.markers.any fun m =>
      decide (t.stack.Ahead m ∧ t.stack.current.cursor = 40 ∧
        (t.stack.unwound m).current.cursor = 8 ∧ (t.stack.unwound m).outstanding = 40 ∧
        ∃ g ∈ t.live, (t.stack.unwound m).holds g = false ∧
          ¬(t.stack.unwound m).Frees g)) = true := by decide +kernel
  obtain ⟨t, hat, hsome⟩ := (Option.any_eq_true _ _).1 hall
  obtain ⟨m, hm, hcut⟩ := List.any_eq_true.1 hsome
  obtain ⟨hahead, hforty, height, hcount, hlost⟩ := of_decide_eq_true hcut
  have hreach : Reachable (Session.platform .release []) eightAhead := ⟨_, rfl⟩
  have hs := ((hreach.sound hp).settled 0 t hat).wellFormed
  have hrun := unwind_of_accepted (p := Session.platform .release []) (m := m) eightAhead.host hs
    (Or.inl rfl)
  exact ⟨t, m, _, _, hat, hm, hahead, hrun, hforty, height, hcount, hlost⟩

/-- **In its own block a marker ahead changes nothing**, as long as the unwinds before were given
    markers that the checks would accept: then it counts no less than is outstanding. -/
theorem unwound_ahead_in_block (hp : p.Sound gap) {cs : List Call}
    (hcare : cs.length < Word.max ∧ Careful p initial cs)
    (hat : (run p initial cs).at? i = some t) {m : Marker} (hm : m ∈ (run p initial cs).markers)
    (hstack : m.stack = t.stack.id) (hdepth : m.depth = t.stack.blockCount)
    (hserial : m.serial = t.stack.current.serial) (hoffset : t.stack.current.cursor < m.offset) :
    t.stack.unwound m = t.stack := by
  have haccount : Account (0 + cs.length) (run p initial cs) :=
    Account.initial.run hp (Sound.initial gap) (Or.inr (by rwa [Nat.zero_add]))
  have hbalanced : t.stack.outstanding
      = t.stack.current.cursor + (t.stack.below.map Block.cursor).sum := by
    rw [haccount.balanced i t hat, reserved, active, List.map_cons, List.sum_cons]
  have hcount := (haccount.knows m hm i t hat hstack).2 [] t.stack.current t.stack.below rfl
    hserial.symm
  have hahead : t.stack.Ahead m := ⟨hstack, Or.inr ⟨hdepth, hserial, hoffset⟩⟩
  refine (unwound_eq_self_iff hahead).2 ⟨Nat.le_of_lt hoffset, ?_⟩
  omega

end World

end StackArena
