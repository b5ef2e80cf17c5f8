/-
  Geometric growth keeps the number of blocks logarithmic.

  A policy whose step is at least the volume makes every new block as large as all blocks below it
  together, so that each block at least doubles the volume.  That was decided when the block was
  made, from the capacity on the books at that time; the blocks below it are still the same, because
  a stack is only ever cut from the top.  The factor one is such a policy as long as the totals have
  at most 53 bits (`Binary64.one_scaleUp`).

    newest                                oldest
     | 8 or more ...  | 4 or more | 2 or more | 1 |        in initial blocks, all below: 7, 3, 1

  1. **Lists** — `Doubling` lists of capacities, newest first, and their sums
     (`Doubling.mul_two_pow_le`), by induction on the list.
  2. **Steps** — what a growth puts on top (`Grow.doubles`), and that every change of a stack that
     frees what it releases keeps the list so (`Change.geometric`).
  3. **Runs** — `blocks_double`, by induction on the calls after the stack was made.
-/
import StackArena.Proofs.Keeping
import StackArena.Proofs.Capacities
import StackArena.Proofs.Scaling

namespace StackArena

namespace Stack

/-! ## Lists that double -/

/-- `Doubling smallest capacities`: every capacity but the last one is a multiple of the largest
    natural alignment, and neither below `smallest` nor below the sum of those after it. -/
def Doubling (smallest : Nat) : List Nat → Prop
  | [] => True
  | capacity :: older =>
    (older ≠ [] → Alignment.maxNatural ∣ capacity ∧ smallest ≤ capacity ∧ older.sum ≤ capacity) ∧
      Doubling smallest older

namespace Doubling

variable {smallest first : Nat} {capacities older : List Nat}

/-- What is left when capacities are taken from the front. -/
theorem drop (h : Doubling smallest capacities) (n : Nat) :
    Doubling smallest (capacities.drop n) := by
  induction n generalizing capacities with
  | zero => exact h
  | succ n ih =>
    cases capacities with
    | nil => exact h
    | cons capacity older => exact ih h.2

/-- What holds of one capacity in the list. -/
theorem split {newer : List Nat} {capacity : Nat}
    (h : Doubling smallest (newer ++ capacity :: older)) (hsome : older ≠ []) :
    Alignment.maxNatural ∣ capacity ∧ smallest ≤ capacity ∧ older.sum ≤ capacity := by
  induction newer with
  | nil => exact h.1 hsome
  | cons newest newer ih => exact ih h.2

/-- **The sum doubles with every capacity.**  By induction on the list: a capacity is at least the
    sum of those after it, so it brings the sum to twice that. -/
theorem mul_two_pow_le (h : Doubling smallest (capacities ++ [first])) :
    first * 2 ^ capacities.length ≤ (capacities ++ [first]).sum := by
  induction capacities with
  | nil => simp
  | cons capacity older ih =>
    have hsum := (h.1 (by simp)).2.2
    have hrest := ih h.2
    have hcons : (capacity :: older ++ [first]).sum = capacity + (older ++ [first]).sum :=
      List.sum_cons
    rw [hcons]
    calc first * 2 ^ (capacity :: older).length = first * 2 ^ older.length * 2 := by
          rw [List.length_cons, Nat.pow_succ, Nat.mul_assoc]
      _ ≤ (older ++ [first]).sum * 2 := Nat.mul_le_mul_right 2 hrest
      _ ≤ capacity + (older ++ [first]).sum := by
          change (older ++ [first]).sum ≤ capacity at hsum
          omega

end Doubling

/-! ## Steps -/

variable {p : Platform} {gap : Nat} {c : Config} {s s' : Stack} {h h' : Host}

/-- The capacities of the active blocks, newest first. -/
def capacities (s : Stack) : List Nat := s.active.map Block.capacity

/-- `Geometric c s`: a stack of configuration `c` that frees what it releases, with blocks that
    double. -/
structure Geometric (c : Config) (s : Stack) : Prop where
  growth_eq : s.growth = c.growth
  release : s.retention = .release
  cache_eq : s.cache = []
  doubling : Doubling c.minBlock s.capacities
  oldest : ∃ newer, s.capacities = newer ++ [c.initialBlock]

/-- **What a growth puts on top** of a stack without a cache is at least what the policy wants. -/
theorem Grow.doubles {required : Nat} (hgrow : Grow p required s h (.ok (), s', h'))
    (hcache : s.cache = []) : ∃ blk n, s' = s.push blk [] n ∧
      Alignment.maxNatural ∣ blk.capacity ∧ s.growth.minBlock ≤ blk.capacity ∧
      s.growth.factor.scaleUp s.capacity ≤ blk.capacity := by
  cases hgrow with
  | reused hserial htaken =>
    rw [hcache] at htaken
    nomatch htaken
  | made hserial htaken hplace hroom hsmall =>
    have hwanted := Growth.wanted_le_nextCapacity (Nat.lt_of_le_of_lt hsmall (by decide))
    refine ⟨_, _, congrArg (s.push _ · _) hcache, Growth.dvd_nextCapacity _ _ _, ?_, ?_⟩
    · show s.growth.minBlock ≤ s.growth.nextCapacity s.capacity required
      omega
    · show s.growth.factor.scaleUp s.capacity ≤ s.growth.nextCapacity s.capacity required
      omega

/-- A growth keeps a geometric stack so, if the step of the policy is at least the volume. -/
theorem Grow.geometric {required : Nat} {out : Except Fault Unit}
    (hgrow : Grow p required s h (out, s', h')) (hs : s.WellFormed) (hgeo : s.Geometric c)
    (hstep : s.capacity ≤ c.growthFactor.scaleUp s.capacity) : s'.Geometric c := by
  cases out with
  | error f =>
    rcases hgrow.of_error with rfl | ⟨n, -, rfl⟩
    · exact hgeo
    · exact ⟨hgeo.growth_eq, hgeo.release, hgeo.cache_eq, hgeo.doubling, hgeo.oldest⟩
  | ok u =>
    obtain ⟨blk, n, rfl, hdvd, hmin, hvolume⟩ := hgrow.doubles hgeo.cache_eq
    obtain ⟨newer, holdest⟩ := hgeo.oldest
    rw [hgeo.growth_eq] at hmin hvolume
    have hcapacity : s.capacity = s.capacities.sum := hs.capacity_eq
    refine ⟨hgeo.growth_eq, hgeo.release, rfl, ⟨fun _ => ⟨hdvd, hmin, ?_⟩, hgeo.doubling⟩, ?_⟩
    · show s.capacities.sum ≤ blk.capacity
      rw [← hcapacity]
      exact hstep.trans hvolume
    · refine ⟨blk.capacity :: newer, ?_⟩
      show blk.capacity :: s.capacities = _
      rw [holdest]
      rfl

/-- A step in the current block does not touch the capacities. -/
theorem Bump.geometric {r : Request} {out : Except Fault (Option Nat)}
    (hbump : Bump p r s h (out, s', h')) (hgeo : s.Geometric c) : s'.Geometric c := by
  cases hbump with
  | declined => exact hgeo
  | overdrawn => exact ⟨hgeo.growth_eq, hgeo.release, hgeo.cache_eq, hgeo.doubling, hgeo.oldest⟩
  | served => exact ⟨hgeo.growth_eq, hgeo.release, hgeo.cache_eq, hgeo.doubling, hgeo.oldest⟩

/-- The capacities after an unwind are those of the older blocks. -/
theorem capacities_unwound (m : Marker) (s : Stack) :
    (s.unwound m).capacities = s.capacities.drop (s.surplus m.depth) := by
  obtain ⟨blk, rest, hdrop, hcurrent, hbelow⟩ := active_unwound m s
  rw [capacities, capacities, ← List.map_drop, hdrop, active, hcurrent, hbelow]
  rfl

/-- **Every change keeps a geometric stack so**, if the step of the policy is at least the
    volume. -/
theorem Change.geometric {known : Marker → Prop} (hchange : Change p known s h s' h')
    (hs : s.WellFormed) (hgeo : s.Geometric c)
    (hstep : s.capacity ≤ c.growthFactor.scaleUp s.capacity) : s'.Geometric c := by
  have hcache := hchange.cache_nil hgeo.release hgeo.cache_eq
  cases hchange with
  | still => exact hgeo
  | served hserves =>
    refine hserves.keeps (P := fun s' _ => s'.Geometric c) hgeo ?_ ?_
    · intro required out s₁ h₁ hgrow
      exact hgrow.geometric hs hgeo hstep
    · intro s₁ h₁ out s₂ h₂ hfirst hbump
      exact hbump.geometric hfirst
  | @unwound m =>
    -- An unwind takes capacities from the front, and never the last one.
    obtain ⟨newer, holdest⟩ := hgeo.oldest
    have hlength : s.surplus m.depth ≤ newer.length := by
      have hcount := congrArg List.length holdest
      rw [capacities, active, List.length_map, List.length_cons, List.length_append] at hcount
      have hbelow := s.surplus_le m.depth
      simp only [List.length_singleton] at hcount
      omega
    refine ⟨?_, ?_, hcache, ?_, newer.drop (s.surplus m.depth), ?_⟩
    · obtain ⟨current, below, cache, capacity, outstanding, heq⟩ := unwound_eq m s
      rw [heq]
      exact hgeo.growth_eq
    · rw [retention_unwound]
      exact hgeo.release
    · rw [capacities_unwound]
      exact hgeo.doubling.drop _
    · rw [capacities_unwound, holdest, List.drop_append_of_le_length hlength]
  | shrunk => exact ⟨hgeo.growth_eq, hgeo.release, rfl, hgeo.doubling, hgeo.oldest⟩

/-- A new stack has one block. -/
theorem newborn_geometric (h : Host) (base : Nat) (hrelease : c.retention = .release) :
    (newborn c h base).Geometric c :=
  ⟨rfl, hrelease, rfl, ⟨fun hsome => absurd rfl hsome, trivial⟩, [], rfl⟩

/-- **A geometric stack has few blocks**: each of them doubles the capacity. -/
theorem Geometric.mul_two_pow_le (hgeo : s.Geometric c) (hs : s.WellFormed) :
    c.initialBlock * 2 ^ (s.blockCount - 1) ≤ s.capacity := by
  obtain ⟨newer, holdest⟩ := hgeo.oldest
  have hdoubling := hgeo.doubling
  have hcapacity : s.capacity = s.capacities.sum := hs.capacity_eq
  have hcount : s.blockCount - 1 = newer.length := by
    have hlength := congrArg List.length holdest
    rw [capacities, active, List.length_map, List.length_cons, List.length_append] at hlength
    exact Nat.succ.inj hlength
  rw [holdest] at hdoubling hcapacity
  rw [hcount, hcapacity]
  exact hdoubling.mul_two_pow_le

/-- What a geometric stack says of one of its blocks. -/
theorem Geometric.block (hgeo : s.Geometric c) {newer older : List Block} {blk : Block}
    (hactive : s.active = newer ++ blk :: older) (hsome : older ≠ []) :
    Alignment.maxNatural ∣ blk.capacity ∧ c.minBlock ≤ blk.capacity ∧
      (older.map Block.capacity).sum ≤ blk.capacity := by
  have hdoubling := hgeo.doubling
  rw [capacities, hactive, List.map_append, List.map_cons] at hdoubling
  exact hdoubling.split (mt List.map_eq_nil_iff.1 hsome)

end Stack

namespace World

open Stack

variable {p : Platform} {gap i : Nat} {w : World} {c : Config} {cs : List Call} {t : Tenancy}

/-! ## Runs -/

/-- A stack that is just made has one block. -/
theorem geometric_of_made (hrelease : c.retention = .release)
    (hat : (w.step p (.make c)).at? w.slots.length = some t) : t.stack.Geometric c := by
  have hnew : w.at? w.slots.length ≠ some t := fun hold => Nat.lt_irrefl _ (lt_of_at? hold)
  have hstep := step_spec p w (.make c)
  generalize w.step p (.make c) = w' at hstep hat
  cases hstep with
  | idle => exact absurd hat hnew
  | hosted => exact absurd hat hnew
  | made =>
    rcases at?_enroll.1 hat with hold | ⟨-, rfl⟩
    · exact absurd hold hnew
    · exact newborn_geometric _ _ hrelease

/-- **One call** keeps the blocks of a stack doubling, if the step of its policy is at least its
    volume. -/
theorem geometric_step (hp : p.Sound gap) (hw : w.Sound gap) (hlt : i < w.slots.length)
    (hgeo : ∀ t, w.at? i = some t → t.stack.Geometric c)
    (hvolume : ∀ t, w.at? i = some t →
      t.stack.capacity ≤ c.growthFactor.scaleUp t.stack.capacity) (call : Call)
    (hat : (w.step p call).at? i = some t) : t.stack.Geometric c := by
  obtain ⟨u, hu, rfl | ⟨op, -, rfl⟩⟩ := step_at? hlt hat
  · exact hgeo t hu
  · have hset := hw.settled i u hu
    have hchange := Tenancy.act_change hp hset w.markers op
    exact hchange.geometric hset.wellFormed (hgeo u hu) (hvolume u hu)

/-- **A whole run** does, if that holds of every total that occurs before its end. -/
theorem geometric_run (hp : p.Sound gap) (hw : w.Sound gap) (hlt : i < w.slots.length)
    (hgeo : ∀ t, w.at? i = some t → t.stack.Geometric c)
    (hvolume : ∀ ds t, ds <+: cs → (w.run p ds).at? i = some t →
      t.stack.capacity ≤ c.growthFactor.scaleUp t.stack.capacity)
    (hat : (w.run p cs).at? i = some t) : t.stack.Geometric c := by
  induction cs generalizing w with
  | nil => exact hgeo t hat
  | cons call cs ih =>
    have hfirst : ∀ t, w.at? i = some t → t.stack.capacity ≤ c.growthFactor.scaleUp t.stack.capacity :=
      fun t ht => hvolume [] t List.nil_prefix ht
    refine ih (hw.step hp call) (Nat.lt_of_lt_of_le hlt (length_slots_step p w call)) ?_ ?_ hat
    · intro u hu
      exact geometric_step hp hw hlt hgeo hfirst call hu
    · intro ds u hprefix hu
      exact hvolume (call :: ds) u ((List.prefix_cons_inj call).2 hprefix) hu

/-- **Geometric growth keeps the number of blocks logarithmic.**  Of every stack that frees what it
    releases, in either build and whatever is allocated, unwound and guarded on the way, if at every
    point of the run the step of its policy is at least its capacity:
    1. every active block but the oldest has a capacity that is a multiple of 16, at least the
       smallest block of the configuration, and at least the sum over all active blocks below it;
    2. so the capacity is at least the initial block, doubled once for each further block.
    A factor of one is such a policy as long as the capacity is at most 2⁵³. -/
theorem blocks_double (hp : p.Sound gap) (hw : Reachable p w) (hrelease : c.retention = .release)
    (hmade : ((w.step p (.make c)).at? w.slots.length).isSome)
    (hvolume : ∀ ds t, ds <+: cs → ((w.step p (.make c)).run p ds).at? w.slots.length = some t →
      t.stack.capacity ≤ c.growthFactor.scaleUp t.stack.capacity)
    (hat : ((w.step p (.make c)).run p cs).at? w.slots.length = some t) :
    (∀ newer blk older, t.stack.active = newer ++ blk :: older → older ≠ [] →
      16 ∣ blk.capacity ∧ c.minBlock ≤ blk.capacity ∧
        (older.map Block.capacity).sum ≤ blk.capacity) ∧
    c.initialBlock * 2 ^ (t.stack.blockCount - 1) ≤ t.stack.capacity ∧
    ∀ total ≤ 2 ^ 53, total ≤ Binary64.one.scaleUp total := by
  have hsound := (hw.sound hp).step hp (.make c)
  obtain ⟨u, hu⟩ := Option.isSome_iff_exists.1 hmade
  have hgeo := geometric_run hp hsound (lt_of_at? hu)
    (fun u hu => geometric_of_made hrelease hu) hvolume hat
  have hset := (hsound.run hp cs).settled _ _ hat
  refine ⟨fun newer blk older hactive hsome => hgeo.block hactive hsome,
    hgeo.mul_two_pow_le hset.wellFormed, ?_⟩
  intro total htotal
  exact Nat.le_of_eq (Binary64.one_scaleUp htotal).symm

/-- A stack that frees what it releases, with a first block of 64 bytes. -/
def frugal : Config := ⟨64, 16, .one, .release, false⟩

/-- It grows in a scope, falls back at the end of it, and grows again, by other requests. -/
def regrowth : List Call :=
  [.on 0 .enter, .on 0 (.allocate .plain ⟨100, 1⟩), .on 0 (.allocate .plain ⟨300, 1⟩), .on 0 .leave,
    .on 0 (.allocate .plain ⟨70, 1⟩), .on 0 (.allocate .plain ⟨150, 1⟩)]

/-- The stack has blocks of 64, 80 and 160 bytes then; with three blocks it owns at least four times
    its first one. -/
theorem blocks_double_regrown :
    ∃ t, ((initial.step (Session.platform .debug []) (.make frugal)).run
        (Session.platform .debug []) regrowth).at? 0 = some t ∧
      t.stack.active.map Block.capacity = [160, 80, 64] ∧
      64 * 2 ^ (t.stack.blockCount - 1) ≤ t.stack.capacity := by
  have hp : (Session.platform .debug []).Sound 1 :=
    Session.platform_sound .debug (by nofun) (by decide)
  have hlook : (((initial.step (Session.platform .debug []) (.make frugal)).run
      (Session.platform .debug []) regrowth).at? 0).map (fun t =>
        t.stack.active.map Block.capacity) = some [160, 80, 64] := by decide +kernel
  have hmade : ((initial.step (Session.platform .debug []) (.make frugal)).at?
      initial.slots.length).isSome := by decide +kernel
  have htotals : (regrowth.inits.all fun ds =>
      (((initial.step (Session.platform .debug []) (.make frugal)).run
        (Session.platform .debug []) ds).at? 0).all fun t => decide (t.stack.capacity ≤ 2 ^ 53))
      = true := by decide +kernel
  obtain ⟨t, hat, hcapacities⟩ := Option.map_eq_some_iff.1 hlook
  have hvolume : ∀ ds t, ds <+: regrowth →
      ((initial.step (Session.platform .debug []) (.make frugal)).run (Session.platform .debug [])
        ds).at? 0 = some t → t.stack.capacity ≤ frugal.growthFactor.scaleUp t.stack.capacity := by
    intro ds t hprefix hat
    have hall := List.all_eq_true.1 htotals ds ((List.mem_inits _ _).2 hprefix)
    rw [hat] at hall
    exact Nat.le_of_eq (Binary64.one_scaleUp (of_decide_eq_true hall)).symm
  have hstart : Reachable (Session.platform .debug []) initial := ⟨[], rfl⟩
  have hdoubles := blocks_double hp hstart rfl hmade hvolume hat
  exact ⟨t, hat, hcapacities, hdoubles.2.1⟩

end World

end StackArena
