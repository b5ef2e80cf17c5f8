/-
  What a comparison of markers tells about blocks.

  Two markers of one stack are captured at two points of a run.  Between them blocks may have been
  released, and others may have taken their places, out of the cache or new.  Whether the block at a
  depth is still the one that it was turns on one thing: whether that block was released in between
  (`continues_iff`).

  A comparison looks at the serials only where the depths are the same.  There it tells a block from
  another in its place; at different depths it tells nothing, and orders positions of which one was
  gone before the other came to be (`compare_across_replaced`).
-/
import StackArena.Proofs.Positions

namespace StackArena

/-- `old.Continues blk`: the block is the old one, whatever its cursor. -/
def Block.Continues (old blk : Block) : Prop := blk = { old with cursor := blk.cursor }

instance (old blk : Block) : Decidable (old.Continues blk) :=
  inferInstanceAs (Decidable (blk = { old with cursor := blk.cursor }))

namespace Stack

/-- The block of a position is the current one. -/
theorem blockAt?_top (s : Stack) : s.blockAt? s.top.depth = some s.current :=
  blockAt?_eq_some_iff.2 ⟨[], s.below, rfl, rfl⟩

/-- A deeper stack has a block at the depth of one that is less deep. -/
theorem blockAt?_of_lower {s s' : Stack} (hlt : s.top.depth < s'.top.depth) :
    ∃ blk, s'.blockAt? s.top.depth = some blk := by
  have hdepth : s.top.depth = s.below.length + 1 := rfl
  have hlength : s'.active.length = s'.top.depth := rfl
  unfold blockAt?
  rw [if_neg (by omega)]
  exact ⟨_, List.getElem?_eq_getElem (by rw [List.length_reverse]; omega)⟩

end Stack

namespace World

open Stack

variable {p : Platform} {gap k : Nat} {w : World} {t t' : Tenancy} {ds : List Call}

/-- A world follows the stack that one of its stacks was when a block further down was the current
    one. -/
theorem Follows.below (hw : w.Sound gap) (hat : w.at? k = some t) {newer older : List Block}
    {blk : Block} (hsplit : t.stack.active = newer ++ blk :: older) :
    Follows k { t.stack with current := blk, below := older } w := by
  have hstart := Follows.start hw hat
  refine ⟨hstart.slot_lt, hstart.issued, hstart.own, hstart.foreign, ?_⟩
  intro u hu
  cases hat.symm.trans hu
  exact Or.inl ⟨newer, blk.cursor, hsplit⟩

section

variable (hp : p.Sound gap) (hdebug : p.build = .debug) (hw : Reachable p w)
  (hat : w.at? k = some t) (hat' : (w.run p ds).at? k = some t')

include hp hdebug hw hat hat'

/-- **What is at a depth later.**  It is the block that was there, or that block was released in
    between and its serial is out of use. -/
theorem block_later {depth : Nat} {blk blk' : Block} (hblk : t.stack.blockAt? depth = some blk)
    (hblk' : t'.stack.blockAt? depth = some blk') :
    (¬Released p w ds k blk.region ∧ blk.Continues blk') ∨
      (Released p w ds k blk.region ∧ blk'.serial ≠ blk.serial) := by
  obtain ⟨newer, older, hsplit, hdepth⟩ := blockAt?_eq_some_iff.1 hblk
  have hf := Follows.below (hw.sound hp) hat hsplit
  have hreleased := hf.released_iff hp hdebug hw hat ⟨newer, blk.cursor, hsplit⟩ hat'
  rcases (hf.run hp hdebug hw ds).fate t' hat' with habove | hexpired
  · refine Or.inl ⟨fun hgone => habove.not_expired (hreleased.1 hgone), ?_⟩
    -- The block stands on as many blocks as before, so it is found at the same depth.
    obtain ⟨newer', cursor, hactive⟩ := habove
    have hsame := blockAt?_eq_some_iff.2 ⟨newer', older, hactive, hdepth⟩
    cases hblk'.symm.trans hsame
    rfl
  · obtain ⟨newer', older', hsplit', -⟩ := blockAt?_eq_some_iff.1 hblk'
    refine Or.inr ⟨hreleased.2 hexpired, hexpired.2 blk' ?_⟩
    rw [hsplit']
    exact List.mem_append_cons_self

/-- **A block continues just when it was not released.** -/
theorem continues_iff {depth : Nat} {blk blk' : Block} (hblk : t.stack.blockAt? depth = some blk)
    (hblk' : t'.stack.blockAt? depth = some blk') :
    blk.Continues blk' ↔ ¬Released p w ds k blk.region := by
  rcases block_later hp hdebug hw hat hat' hblk hblk' with ⟨hkept, hsame⟩ | ⟨hgone, hserial⟩
  · exact ⟨fun _ => hkept, fun _ => hsame⟩
  · refine ⟨fun hsame => absurd ?_ hserial, fun hkept => absurd hgone hkept⟩
    rw [hsame]

/-- **What a comparison of two markers tells.**  In a debug build, of a marker and a later one of
    the same stack, captured at any two points of a run:
    1. they cannot be compared just when they are of the same depth and the block of the earlier one
       was released in between;
    2. if the later one is deeper it is the larger one, and the block at the depth of the earlier
       one is then the block of the earlier one just when that was not released in between;
    3. if the later one is less deep it is the smaller one, and the block at its depth when the
       other was captured is its own just when that was not released in between. -/
theorem comparison_tells :
    (t.stack.top.compare? t'.stack.top = none ↔
      t.stack.top.depth = t'.stack.top.depth ∧ Released p w ds k t.stack.current.region) ∧
    (t.stack.top.depth < t'.stack.top.depth →
      t.stack.top.compare? t'.stack.top = some .lt ∧
      ∃ blk, t'.stack.blockAt? t.stack.top.depth = some blk ∧
        (t.stack.current.Continues blk ↔ ¬Released p w ds k t.stack.current.region)) ∧
    (t'.stack.top.depth < t.stack.top.depth →
      t.stack.top.compare? t'.stack.top = some .gt ∧
      ∃ blk, t.stack.blockAt? t'.stack.top.depth = some blk ∧
        (blk.Continues t'.stack.current ↔ ¬Released p w ds k blk.region)) := by
  have hstack : t.stack.top.stack = t'.stack.top.stack :=
    (((Follows.start (hw.sound hp) hat).run hp hdebug hw ds).own t' hat').symm
  refine ⟨?_, ?_, ?_⟩
  · rw [Marker.compare?_eq_none_iff]
    have hlevel : t.stack.top.depth = t'.stack.top.depth →
        (¬Released p w ds k t.stack.current.region ∧ t.stack.current.Continues t'.stack.current) ∨
          (Released p w ds k t.stack.current.region ∧
            t'.stack.current.serial ≠ t.stack.current.serial) := by
      intro hdepth
      refine block_later hp hdebug hw hat hat' t.stack.blockAt?_top ?_
      rw [hdepth]
      exact t'.stack.blockAt?_top
    constructor
    · rintro (hforeign | ⟨hdepth, hserial⟩)
      · exact absurd hstack hforeign
      · rcases hlevel hdepth with ⟨-, hsame⟩ | ⟨hgone, -⟩
        · exact absurd (congrArg Block.serial hsame).symm hserial
        · exact ⟨hdepth, hgone⟩
    · rintro ⟨hdepth, hgone⟩
      rcases hlevel hdepth with ⟨hkept, -⟩ | ⟨-, hserial⟩
      · exact absurd hgone hkept
      · exact Or.inr ⟨hdepth, hserial.symm⟩
  · intro hlt
    obtain ⟨blk, hblk⟩ := blockAt?_of_lower hlt
    exact ⟨Marker.compare?_of_lower hstack hlt, blk, hblk,
      continues_iff hp hdebug hw hat hat' t.stack.blockAt?_top hblk⟩
  · intro hgt
    obtain ⟨blk, hblk⟩ := blockAt?_of_lower hgt
    exact ⟨Marker.compare?_of_higher hstack hgt, blk, hblk,
      continues_iff hp hdebug hw hat hat' hblk t'.stack.blockAt?_top⟩

end

/-- A third block is put on the second one of `twoBlocks`, which stays where it is: the later marker
    is the larger one, and no release is what this says. -/
theorem comparison_tells_kept :
    ∃ t t', twoBlocks.at? 0 = some t ∧
      (twoBlocks.run (Session.platform .debug []) [.on 0 (.allocate .plain ⟨2000, 1⟩)]).at? 0
        = some t' ∧
      t.stack.top.compare? t'.stack.top = some .lt ∧
      ¬Released (Session.platform .debug []) twoBlocks [.on 0 (.allocate .plain ⟨2000, 1⟩)] 0
        t.stack.current.region := by
  have hp : (Session.platform .debug []).Sound 1 :=
    Session.platform_sound .debug (by nofun) (by decide)
  have hstart : (twoBlocks.at? 0).map (fun t => (t.stack.current, t.stack.top.depth))
      = some (⟨1, 131072, 1024, 100, 1⟩, 2) := by decide +kernel
  have hend : ((twoBlocks.run (Session.platform .debug [])
      [.on 0 (.allocate .plain ⟨2000, 1⟩)]).at? 0).map
      (fun t => (t.stack.blockAt? 2, t.stack.top.depth))
      = some (some ⟨1, 131072, 1024, 100, 1⟩, 3) := by decide +kernel
  obtain ⟨t, hat, hfirst⟩ := Option.map_eq_some_iff.1 hstart
  obtain ⟨t', hat', hlast⟩ := Option.map_eq_some_iff.1 hend
  obtain ⟨hcurrent, hdepth⟩ := Prod.mk.inj hfirst
  obtain ⟨hthere, hdepth'⟩ := Prod.mk.inj hlast
  obtain ⟨-, hdeeper, -⟩ := comparison_tells hp rfl ⟨_, rfl⟩ hat hat'
  obtain ⟨hlt, blk, hblk, hcontinues⟩ := hdeeper (by omega)
  refine ⟨t, t', hat, hat', hlt, hcontinues.1 ?_⟩
  rw [hdepth, hthere] at hblk
  rw [hcurrent, ← Option.some.inj hblk]
  decide

/-- Calls that release the second block, bring it again, and put a third block on it. -/
def regrown : List Call := goneAndBack ++ [.on 0 (.allocate .plain ⟨2000, 1⟩)]

/-- **Markers of different timelines can be compared.**  The second block was released after the
    first marker was captured, and what is at its depth when the second one is captured is another
    block; the first marker lies before the second one all the same, since that is deeper. -/
theorem compare_across_replaced :
    ∃ t t' blk, twoBlocks.at? 0 = some t ∧
      (twoBlocks.run (Session.platform .debug []) regrown).at? 0 = some t' ∧
      t.stack.top.depth < t'.stack.top.depth ∧
      t.stack.top.compare? t'.stack.top = some .lt ∧
      t'.stack.blockAt? t.stack.top.depth = some blk ∧
      ¬t.stack.current.Continues blk ∧
      Released (Session.platform .debug []) twoBlocks regrown 0 t.stack.current.region := by
  have hp : (Session.platform .debug []).Sound 1 :=
    Session.platform_sound .debug (by nofun) (by decide)
  have hstart : (twoBlocks.at? 0).map (fun t => (t.stack.top, t.stack.current))
      = some (⟨⟨1⟩, 2, 1, 100, 100⟩, ⟨1, 131072, 1024, 100, 1⟩) := by decide +kernel
  have hend : ((twoBlocks.run (Session.platform .debug []) regrown).at? 0).map
      (fun t => (t.stack.top, t.stack.blockAt? 2))
      = some (⟨⟨1⟩, 3, 3, 2000, 2100⟩, some ⟨1, 131072, 1024, 100, 2⟩) := by decide +kernel
  obtain ⟨t, hat, hfirst⟩ := Option.map_eq_some_iff.1 hstart
  obtain ⟨t', hat', hlast⟩ := Option.map_eq_some_iff.1 hend
  obtain ⟨htop, hcurrent⟩ := Prod.mk.inj hfirst
  obtain ⟨htop', hthere⟩ := Prod.mk.inj hlast
  have hblk : t'.stack.blockAt? t.stack.top.depth = some ⟨1, 131072, 1024, 100, 2⟩ := by
    rw [htop]
    exact hthere
  have hother : ¬t.stack.current.Continues ⟨1, 131072, 1024, 100, 2⟩ := by
    rw [hcurrent]
    decide
  refine ⟨t, t', _, hat, hat', ?_, ?_, hblk, hother, ?_⟩
  · rw [htop, htop']
    decide
  · rw [htop, htop']
    decide
  · rcases block_later hp rfl ⟨_, rfl⟩ hat hat' t.stack.blockAt?_top hblk with
      ⟨-, hsame⟩ | ⟨hgone, -⟩
    · exact absurd hsame hother
    · exact hgone

end World

end StackArena
