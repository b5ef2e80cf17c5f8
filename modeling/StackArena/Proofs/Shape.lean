/-
  The shape of a stack: what holds of its blocks in every build and after every unwind.

  A stack has blocks in two places, the active ones and the cached ones.  It is **well formed**
  when every cursor lies inside its block, every block lies inside the address space, the total
  capacity on its books is the sum over the active blocks, and its bottom is the start of its
  oldest block.  It is **lodged** in memory when every block has a live region of its own there.
  The other half of the books, the outstanding bytes, is right only as long as unwinds are given
  markers that fit (`Balanced`).

  Lodged in memory without overlaps, all blocks together are smaller than the address space
  (`Lodged.sum_capacity_lt`); that is why no sum of capacities is ever too large for a word.

  A stack is **settled** on a host when all this holds in spaced memory.  Every operation of a
  stack keeps it settled and leaves all regions alone that are not its own: it `Moves`.
-/
import StackArena.Proofs.Hosting
import StackArena.Stack.Basic
import Mathlib.Algebra.Order.BigOperators.Group.List
import Mathlib.Algebra.Order.Group.Nat

namespace StackArena.Stack

/-! ## Blocks, regions and sums -/

/-- All blocks of a stack. -/
def blocks (s : Stack) : List Block := s.active ++ s.cache

/-- The regions of all blocks of a stack. -/
def regions (s : Stack) : List Nat := s.blocks.map Block.region

/-- The capacities of the active blocks together. -/
def volume (s : Stack) : Nat := (s.active.map Block.capacity).sum

/-- The cursors of the active blocks together. -/
def reserved (s : Stack) : Nat := (s.active.map Block.cursor).sum

theorem current_mem_active (s : Stack) : s.current ∈ s.active := List.mem_cons_self

theorem mem_blocks_of_active {s : Stack} {blk : Block} (h : blk ∈ s.active) : blk ∈ s.blocks :=
  List.mem_append_left s.cache h

theorem mem_blocks_of_cache {s : Stack} {blk : Block} (h : blk ∈ s.cache) : blk ∈ s.blocks :=
  List.mem_append_right s.active h

theorem current_mem_blocks (s : Stack) : s.current ∈ s.blocks :=
  mem_blocks_of_active s.current_mem_active

theorem mem_regions_of_block {s : Stack} {blk : Block} (h : blk ∈ s.blocks) :
    blk.region ∈ s.regions := List.mem_map_of_mem h

/-! ## Well formed -/

/-- `WellFormed s`: cursors inside blocks, blocks inside the address space, the capacity on the
    books is the sum of the active blocks, and the bottom is the start of the oldest. -/
structure WellFormed (s : Stack) : Prop where
  cursor_le : ∀ blk ∈ s.blocks, blk.cursor ≤ blk.capacity
  bounded : ∀ blk ∈ s.blocks, blk.base + blk.capacity < Word.count
  capacity_eq : s.capacity = s.volume
  rooted : ∃ newer oldest, s.active = newer ++ [oldest] ∧
    s.bottom = ⟨s.id, 1, oldest.serial, 0, 0⟩

/-- The cursor of the current block has not passed its end. -/
theorem WellFormed.current_le {s : Stack} (hs : s.WellFormed) :
    s.current.cursor ≤ s.current.capacity := hs.cursor_le _ s.current_mem_blocks

/-- The capacity of the current block is a word. -/
theorem WellFormed.current_lt {s : Stack} (hs : s.WellFormed) :
    s.current.capacity < Word.count :=
  Nat.lt_of_le_of_lt (Nat.le_add_left _ _) (hs.bounded _ s.current_mem_blocks)

/-- Whatever is reserved lies in the active blocks. -/
theorem WellFormed.reserved_le_volume {s : Stack} (hs : s.WellFormed) : s.reserved ≤ s.volume :=
  List.sum_le_sum fun blk hblk => hs.cursor_le blk (mem_blocks_of_active hblk)

/-- The oldest block is known by its serial alone, so the root of a stack stays when the current
    block is replaced by one of the same serial. -/
theorem WellFormed.rooted_of_serial {s s' : Stack} (hs : s.WellFormed)
    (hserial : s'.current.serial = s.current.serial) (hbelow : s'.below = s.below)
    (hid : s'.id = s.id) (hbottom : s'.bottom = s.bottom) :
    ∃ newer oldest, s'.active = newer ++ [oldest] ∧
      s'.bottom = ⟨s'.id, 1, oldest.serial, 0, 0⟩ := by
  obtain ⟨newer, oldest, hactive, hroot⟩ := hs.rooted
  rw [hbottom, hid, hroot]
  -- With nothing newer the current block is the oldest itself, and its serial is what counts.
  cases newer with
  | nil =>
    obtain ⟨hcur, hnil⟩ := List.cons.inj hactive
    refine ⟨[], s'.current, ?_, ?_⟩
    · rw [active, hbelow, hnil]
      rfl
    · rw [hserial, hcur]
  | cons top newer =>
    obtain ⟨-, hrest⟩ := List.cons.inj hactive
    refine ⟨s'.current :: newer, oldest, ?_, rfl⟩
    rw [active, hbelow, hrest]
    rfl

/-- A stack stays well formed when the cursor of its current block is put elsewhere in the block,
    whatever the books say is outstanding then. -/
theorem WellFormed.turn {s : Stack} (hs : s.WellFormed) {cursor : Nat} (outstanding : Nat)
    (hcursor : cursor ≤ s.current.capacity) :
    ({ s with current := { s.current with cursor }, outstanding } : Stack).WellFormed := by
  refine ⟨?_, ?_, hs.capacity_eq, hs.rooted_of_serial rfl rfl rfl rfl⟩
  · intro blk hblk
    rcases List.mem_cons.1 hblk with rfl | hold
    · exact hcursor
    · exact hs.cursor_le blk (List.mem_cons_of_mem _ hold)
  · intro blk hblk
    rcases List.mem_cons.1 hblk with rfl | hold
    · exact hs.bounded s.current s.current_mem_blocks
    · exact hs.bounded blk (List.mem_cons_of_mem _ hold)

/-- **Balanced books**: the outstanding bytes are the ones that the cursors say. -/
def Balanced (s : Stack) : Prop := s.outstanding = s.reserved

/-! ## Lodged in memory -/

/-- `Lodged m s`: every block of `s` has a region of its own, and that is live in `m`. -/
structure Lodged (m : Memory) (s : Stack) : Prop where
  housed : ∀ blk ∈ s.blocks, m.extent? blk.region = some blk.extent
  distinct : s.regions.Nodup

namespace Lodged

variable {m : Memory} {s : Stack}

/-- Two active blocks in one region are one block. -/
theorem eq_of_region_eq (h : Lodged m s) {blk other : Block} (hblk : blk ∈ s.active)
    (hother : other ∈ s.active) (heq : blk.region = other.region) : blk = other :=
  List.inj_on_of_nodup_map h.distinct (mem_blocks_of_active hblk) (mem_blocks_of_active hother) heq

/-- A region that is not there is no region of the stack. -/
theorem notMem_of_extent?_none {n : Nat} (h : Lodged m s) (hn : m.extent? n = none) :
    n ∉ s.regions := by
  intro hmem
  obtain ⟨blk, hblk, rfl⟩ := List.mem_map.1 hmem
  rw [h.housed blk hblk] at hn
  nomatch hn

/-- In spaced memory the blocks of a stack keep their distance. -/
theorem apart {gap : Nat} (hm : m.Spaced gap) (h : Lodged m s) {blk other : Block}
    (hblk : blk ∈ s.blocks) (hother : other ∈ s.blocks) (hne : blk.region ≠ other.region) :
    blk.base + blk.capacity + gap ≤ other.base ∨ other.base + other.capacity + gap ≤ blk.base :=
  hm.apart _ _ _ _ (h.housed blk hblk) (h.housed other hother) hne rfl rfl

/-- All blocks of a stack together are smaller than the address space. -/
theorem sum_capacity_lt {gap : Nat} (hm : m.Spaced gap) (h : Lodged m s) :
    (s.blocks.map Block.capacity).sum < Word.count := by
  have hbound : ∀ blk ∈ s.blocks, blk.base + blk.capacity ≤ Word.count - 1 := by
    intro blk hblk
    have hlim : blk.base + blk.capacity < Word.count := hm.bounded _ _ (h.housed blk hblk) rfl
    omega
  have hapart : s.blocks.Pairwise fun x y =>
      x.base + x.capacity ≤ y.base ∨ y.base + y.capacity ≤ x.base := by
    refine (List.pairwise_map.1 h.distinct).imp_of_mem fun {x y} hx hy hne => ?_
    rcases h.apart hm hx hy hne with hxy | hyx
    · exact Or.inl (by omega)
    · exact Or.inr (by omega)
  have hsum := sum_le_of_apart Block.base Block.capacity s.blocks hbound hapart
  have hpos : 0 < Word.count := by decide
  omega

/-- The active blocks alone are, too. -/
theorem volume_lt {gap : Nat} (hm : m.Spaced gap) (h : Lodged m s) : s.volume < Word.count := by
  have hall := h.sum_capacity_lt hm
  rw [blocks, List.map_append, List.sum_append] at hall
  unfold volume
  omega

end Lodged

/-! ## Overwritten bytes -/

/-- The host after bytes of the current block were overwritten, if the stack does that. -/
def painted (s : Stack) (h : Host) (offset length : Nat) (byte : UInt8) : Host :=
  if s.fill then h.filled s.current.region offset length byte else h

@[simp] theorem extent?_painted (s : Stack) (h : Host) (offset length n : Nat) (byte : UInt8) :
    (s.painted h offset length byte).memory.extent? n = h.memory.extent? n := by
  unfold painted
  split
  · exact h.extent?_filled _ _ _ _ _
  · rfl

@[simp] theorem lastId_painted (s : Stack) (h : Host) (offset length : Nat) (byte : UInt8) :
    (s.painted h offset length byte).lastId = h.lastId := by
  unfold painted
  split <;> rfl

@[simp] theorem journal_painted (s : Stack) (h : Host) (offset length : Nat) (byte : UInt8) :
    (s.painted h offset length byte).journal = h.journal := by
  unfold painted
  split <;> rfl

@[simp] theorem hook_painted (s : Stack) (h : Host) (offset length : Nat) (byte : UInt8) :
    (s.painted h offset length byte).hook = h.hook := by
  unfold painted
  split <;> rfl

/-! ## Settled on a host -/

/-- `Settled gap s h`: a well-formed stack, lodged in spaced memory. -/
structure Settled (gap : Nat) (s : Stack) (h : Host) : Prop where
  wellFormed : s.WellFormed
  lodged : Lodged h.memory s
  spaced : h.memory.Spaced gap

/-- A stack stays settled while another host has its regions as they were. -/
theorem Settled.of_frame {gap : Nat} {s : Stack} {h h' : Host} (hset : Settled gap s h)
    (hm : h'.memory.Spaced gap)
    (hframe : ∀ n x, n ∈ s.regions → h.memory.extent? n = some x → h'.memory.extent? n = some x) :
    Settled gap s h' :=
  ⟨hset.wellFormed, ⟨fun blk hblk => hframe _ _ (mem_regions_of_block hblk)
    (hset.lodged.housed blk hblk), hset.lodged.distinct⟩, hm⟩

/-- `Moves gap s h s' h'`: the stack is settled again, under its old identity, and what it has not
    made itself is where it was. -/
structure Moves (gap : Nat) (s : Stack) (h : Host) (s' : Stack) (h' : Host) : Prop where
  settled : Settled gap s' h'
  id_eq : s'.id = s.id
  lastId_eq : h'.lastId = h.lastId
  frame : ∀ n x, n ∉ s.regions → h.memory.extent? n = some x → h'.memory.extent? n = some x
  owned : ∀ n ∈ s'.regions, n ∈ s.regions ∨ h.memory.extent? n = none

/-- Two moves in a row are one. -/
theorem Moves.trans {gap : Nat} {s₁ s₂ s₃ : Stack} {h₁ h₂ h₃ : Host}
    (hfirst : Moves gap s₁ h₁ s₂ h₂) (hsecond : Moves gap s₂ h₂ s₃ h₃) :
    Moves gap s₁ h₁ s₃ h₃ := by
  refine ⟨hsecond.settled, hsecond.id_eq.trans hfirst.id_eq,
    hsecond.lastId_eq.trans hfirst.lastId_eq, ?_, ?_⟩
  · intro n x hn hx
    refine hsecond.frame n x (fun hn₂ => ?_) (hfirst.frame n x hn hx)
    rcases hfirst.owned n hn₂ with hold | hnew
    · exact hn hold
    · rw [hnew] at hx
      nomatch hx
  · intro n hn
    rcases hsecond.owned n hn with hold | hnew
    · exact hfirst.owned n hold
    · by_cases hmem : n ∈ s₁.regions
      · exact Or.inl hmem
      · -- The first move would have left it there, for the second to find.
        refine Or.inr ?_
        cases hx : h₁.memory.extent? n with
        | none => rfl
        | some x =>
          rw [hfirst.frame n x hmem hx] at hnew
          nomatch hnew

/-- A change that keeps some of the blocks is a move, if the regions of those, and all the regions
    that are not of the stack, are left as they were. -/
theorem Settled.moves_of_kept {gap : Nat} {s s' : Stack} {h h' : Host} (hset : Settled gap s h)
    (hs : s'.WellFormed) (hid : s'.id = s.id) (hlast : h'.lastId = h.lastId)
    (hm : h'.memory.Spaced gap)
    (hextent : ∀ n, (n ∈ s'.regions ∨ n ∉ s.regions) →
      h'.memory.extent? n = h.memory.extent? n)
    (hblocks : ∀ blk' ∈ s'.blocks, ∃ blk ∈ s.blocks,
      blk'.region = blk.region ∧ blk'.extent = blk.extent)
    (hdistinct : s'.regions.Nodup) : Moves gap s h s' h' := by
  refine ⟨⟨hs, ⟨?_, hdistinct⟩, hm⟩, hid, hlast, ?_, ?_⟩
  · intro blk' hblk'
    obtain ⟨blk, hblk, hregion, hext⟩ := hblocks blk' hblk'
    rw [hextent _ (Or.inl (mem_regions_of_block hblk')), hregion, hext]
    exact hset.lodged.housed blk hblk
  · intro n x hn hx
    rw [hextent n (Or.inr hn)]
    exact hx
  · intro n hn
    obtain ⟨blk', hblk', rfl⟩ := List.mem_map.1 hn
    obtain ⟨blk, hblk, hregion, -⟩ := hblocks blk' hblk'
    exact Or.inl (hregion ▸ mem_regions_of_block hblk)

/-- A change that leaves the blocks in their regions, and those as they are, is a move. -/
theorem Settled.moves_of_regions {gap : Nat} {s s' : Stack} {h h' : Host} (hset : Settled gap s h)
    (hs : s'.WellFormed) (hid : s'.id = s.id) (hlast : h'.lastId = h.lastId)
    (hextent : ∀ n, h'.memory.extent? n = h.memory.extent? n)
    (hblocks : ∀ blk' ∈ s'.blocks, ∃ blk ∈ s.blocks,
      blk'.region = blk.region ∧ blk'.extent = blk.extent)
    (hdistinct : s'.regions.Nodup) : Moves gap s h s' h' :=
  hset.moves_of_kept hs hid hlast (hset.spaced.congr hextent) (fun n _ => hextent n) hblocks
    hdistinct

/-- Putting the cursor of the current block elsewhere in the block is a move, also with bytes
    overwritten and other books. -/
theorem Settled.moves_turn {gap : Nat} {s : Stack} {h h' : Host} (hset : Settled gap s h)
    {cursor : Nat} (outstanding : Nat) (hcursor : cursor ≤ s.current.capacity)
    (hlast : h'.lastId = h.lastId)
    (hextent : ∀ n, h'.memory.extent? n = h.memory.extent? n) :
    Moves gap s h { s with current := { s.current with cursor }, outstanding } h' := by
  refine hset.moves_of_regions (hset.wellFormed.turn outstanding hcursor) rfl hlast hextent ?_
    hset.lodged.distinct
  intro blk' hblk'
  rcases List.mem_cons.1 hblk' with rfl | hold
  · exact ⟨s.current, s.current_mem_blocks, rfl, rfl⟩
  · exact ⟨blk', List.mem_cons_of_mem _ hold, rfl, rfl⟩

/-- Nothing that happens is a move. -/
theorem Settled.moves_refl {gap : Nat} {s : Stack} {h : Host} (hset : Settled gap s h) :
    Moves gap s h s h :=
  hset.moves_of_regions hset.wellFormed rfl rfl (fun _ => rfl)
    (fun blk hblk => ⟨blk, hblk, rfl, rfl⟩) hset.lodged.distinct

end StackArena.Stack
