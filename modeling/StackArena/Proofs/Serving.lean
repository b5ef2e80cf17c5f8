/-
  What a request does to a stack.

  1. **Bump** — `Bump` lists the ends of a request to the current block.
  2. **Grow** — `Grow` lists the ends of a growth.
  3. **Serve** — `Serves` puts the two together: it relates the stack and the host before a request
     to the address that is served or the fault that stops it, and to the stack and the host after.

  `tryAllocate_ends` and `allocate_ends` say that requests end in no other way, in either build and
  whatever the books say.  What requests keep is proved of growths and of single steps, and
  `Serves.keeps` puts it together; no later proof opens the definitions again.  The first of these
  results is that a request moves its stack (`Serves.moves`).
-/
import StackArena.Proofs.Shape
import StackArena.Proofs.Sizing
import StackArena.Proofs.Spans
import StackArena.Stack.Allocate

namespace StackArena

namespace Stack

/-! ## Bump -/

/-- The stack with the cursor of its current block moved on, and the books left alone. -/
def advance (n : Nat) (s : Stack) : Stack := { s with current := s.current.advance n }

/-- The stack after the current block has served a request that takes `n` bytes; `o` bytes are
    outstanding then. -/
def serve (n o : Nat) (s : Stack) : Stack := { s.advance n with outstanding := o }

/-- `Bump p r s h end`: the ends of a request to the current block.  It is declined, or served; or
    a debug build finds that the books cannot hold what the block has given. -/
inductive Bump (p : Platform) (r : Request) (s : Stack) (h : Host) :
    Except Fault (Option Nat) × Stack × Host → Prop
  | declined (hspan : s.current.span? r = none) : Bump p r s h (.ok none, s, h)
  | overdrawn {n : Nat} {f : Fault} (hspan : s.current.span? r = some n)
      (hout : p.build.add s.outstanding n = .error f) :
      Bump p r s h (.error f, s.advance n, h)
  | served {n o : Nat} (hspan : s.current.span? r = some n)
      (hout : p.build.add s.outstanding n = .ok o) :
      Bump p r s h (.ok (some (s.current.base + s.current.startOf n r)), s.serve n o,
        s.painted h (s.current.startOf n r) r.size Config.newPattern)

/-- Committing an allocation that takes `n` bytes of a block whose cursor has moved on. -/
theorem commit_of_ok {p : Platform} {r : Request} {s : Stack} {h : Host} {n o : Nat}
    (hs : s.WellFormed) (hspan : s.current.span? r = some n)
    (hout : p.build.add s.outstanding n = .ok o) (address : Nat) :
    commit p ⟨address, n⟩ r.size (s.advance n, h)
      = .ok address (s.serve n o,
        s.painted h (s.current.startOf n r) r.size Config.newPattern) := by
  obtain ⟨hn, hfits⟩ := Block.span?_spec hspan
  have hcursor := hs.current_le
  have hbound := hs.bounded _ s.current_mem_blocks
  have hsub : p.build.sub (s.current.cursor + n) r.size = .ok (s.current.startOf n r) :=
    p.build.sub_of_le (by omega)
  rw [commit, Action.self_bind]
  show ((liftM (p.build.add s.outstanding n) : Action Stack Nat) >>= _) _ = _
  rw [hout, Action.check_bind, Action.setSelf_bind]
  show (if s.fill then _ else _ : Action Stack Nat) _ = _
  unfold painted
  -- The books are done; what is left is to overwrite the bytes, if the stack does that.
  by_cases hfill : s.fill = true
  · rw [if_pos hfill, if_pos hfill]
    have hpaint : (s.serve n o).current.fill (s.current.startOf n r) r.size Config.newPattern h
        = .ok () (h.filled s.current.region (s.current.startOf n r) r.size Config.newPattern) :=
      Block.fill_apply (s.current.advance n) _ h
        (by
          show s.current.startOf n r + r.size ≤ s.current.capacity
          unfold Block.startOf
          omega)
        (by
          show s.current.capacity < Word.count
          omega)
    show ((liftM (p.build.sub (s.current.cursor + n) r.size) : Action Stack Nat) >>= _) _ = _
    rw [hsub, Action.check_bind]
    exact Action.bind_of_ok (Action.onHost_of_ok hpaint)
  · rw [if_neg hfill, if_neg hfill]
    rfl

theorem commit_of_error {p : Platform} {a : Allocation} {size : Nat} {s : Stack} {h : Host}
    {f : Fault} (hout : p.build.add s.outstanding a.reserved = .error f) :
    commit p a size (s, h) = .error f (s, h) := by
  rw [commit, Action.self_bind]
  exact Action.bind_of_error (by rw [Action.check_apply, hout, Action.check_error])

/-- **A request to the current block** ends in one of the ways of `Bump`. -/
theorem bump_ends {p : Platform} {r : Request} {s : Stack} (h : Host) (hs : s.WellFormed)
    (hvalid : p.build = .release ∨ Alignment.isValid r.alignment = true) :
    Bump p r s h (Action.after (bump p r) (s, h)) := by
  have hcursor := hs.current_le
  have hbound := hs.bounded _ s.current_mem_blocks
  have hasked := Block.spanFor_eq (r := r) hcursor hbound hvalid
  cases hspan : s.current.span? r with
  | none =>
    have htry : s.current.tryAllocate p.build r = .ok none :=
      Block.tryAllocate_of_none (hasked.trans (congrArg _ hspan))
    have hrun : bump p r (s, h) = .ok none (s, h) := by
      rw [bump, Action.self_bind, htry]
      rfl
    rw [Action.after_of_ok hrun]
    exact .declined hspan
  | some n =>
    have htry := Block.tryAllocate_of_some hcursor hbound (hasked.trans (congrArg _ hspan)) hspan
    have hrun : ∀ out, (do return some (← commit p
          ⟨s.current.base + s.current.startOf n r, n⟩ r.size) : Action Stack (Option Nat))
          (s.advance n, h) = out → bump p r (s, h) = out := by
      intro out hout
      rw [bump, Action.self_bind, htry]
      exact hout
    cases hout : p.build.add s.outstanding n with
    | ok o =>
      rw [Action.after_of_ok (hrun _ (Action.bind_of_ok (commit_of_ok hs hspan hout _)))]
      exact .served hspan hout
    | error f =>
      rw [Action.after_of_error (hrun _ (Action.bind_of_error
        (commit_of_error (s := s.advance n) hout)))]
      exact .overdrawn hspan hout

/-- A span of the current block ends inside the block. -/
theorem WellFormed.span_le {s : Stack} (hs : s.WellFormed) {r : Request} {n : Nat}
    (hspan : s.current.span? r = some n) : s.current.cursor + n ≤ s.current.capacity := by
  have hcursor := hs.current_le
  have hfree := (Block.span?_spec hspan).2
  omega

/-- The first step of a request moves its stack. -/
theorem Bump.moves {p : Platform} {r : Request} {gap : Nat} {s s' : Stack} {h h' : Host}
    {out : Except Fault (Option Nat)} (hset : Settled gap s h)
    (hbump : Bump p r s h (out, s', h')) : Moves gap s h s' h' := by
  cases hbump with
  | declined => exact hset.moves_refl
  | overdrawn hspan hout =>
    exact hset.moves_turn _ (hset.wellFormed.span_le hspan) rfl fun n => rfl
  | served hspan hout =>
    exact hset.moves_turn _ (hset.wellFormed.span_le hspan) (s.lastId_painted h _ _ _)
      (s.extent?_painted h _ _ · _)

/-! ## Grow -/

/-- The stack with a block put on top; `others` stay in the cache, and the next serial is `n`. -/
def push (blk : Block) (others : List Block) (n : Nat) (s : Stack) : Stack :=
  { s with
    current := blk
    below := s.active
    cache := others
    capacity := s.capacity + blk.capacity
    nextSerial := n }

/-- The host after the event that tells of a growth. -/
def announced (s : Stack) (required : Nat) (h : Host) : Host :=
  { h with
    journal := h.journal ++
      [.event (.growing s.id (s.growth.nextCapacity s.capacity required) s.capacity required)] }

/-- The new block that a growth makes in a region at `base`. -/
def newBlock (s : Stack) (h : Host) (required base : Nat) : Block where
  region := h.memory.nextRegion
  base := base
  capacity := s.growth.nextCapacity s.capacity required
  cursor := 0
  serial := s.nextSerial

/-- `Grow p required s h end`: the ends of a growth.  A block of the cache is put on top, or a new
    one; or the serials have come to their end, or no block can be had. -/
inductive Grow (p : Platform) (required : Nat) (s : Stack) (h : Host) :
    Except Fault Unit × Stack × Host → Prop
  | reused {n : Nat} {blk : Block} {others : List Block}
      (hserial : p.build.add s.nextSerial 1 = .ok n)
      (hcache : takeCached? required s.cache = some (blk, others)) :
      Grow p required s h (.ok (), s.push (blk.recycle s.nextSerial) others n, h)
  | made {n base : Nat} (hserial : p.build.add s.nextSerial 1 = .ok n)
      (hcache : takeCached? required s.cache = none)
      (hplace : p.placeRegion h.memory.outline
        (Block.layoutOf (s.newBlock h required base).capacity) = some base)
      (hroom : required ≤ (s.newBlock h required base).capacity)
      (hsmall : (s.newBlock h required base).capacity ≤ Nat.pow 2 63 - Alignment.maxNatural) :
      Grow p required s h (.ok (), s.push (s.newBlock h required base) s.cache n,
        (s.announced required h).withRegion p base
          (Block.layoutOf (s.newBlock h required base).capacity))
  | serialsOut {f : Fault} (hserial : p.build.add s.nextSerial 1 = .error f) :
      Grow p required s h (.error f, s, h)
  | noBlock {n : Nat} {f : Fault} (hserial : p.build.add s.nextSerial 1 = .ok n)
      (hcache : takeCached? required s.cache = none)
      (hmake : Block.make p (s.growth.nextCapacity s.capacity required) s.nextSerial
        (s.announced required h) = .error f (s.announced required h)) :
      Grow p required s h (.error f, { s with nextSerial := n }, s.announced required h)

/-- The first block of a cache is taken if it has the room. -/
theorem takeCached?_cons {required : Nat} {blk : Block} {rest : List Block}
    (hroom : required ≤ blk.capacity) : takeCached? required (blk :: rest) = some (blk, rest) := by
  rw [takeCached?, if_pos hroom]

/-- The block taken from a cache is one of it, with the room that is required; the others stay. -/
theorem takeCached?_spec {required : Nat} {cache others : List Block} {blk : Block}
    (h : takeCached? required cache = some (blk, others)) :
    required ≤ blk.capacity ∧ (blk :: others).Perm cache := by
  induction cache generalizing blk others with
  | nil => nomatch h
  | cons first rest ih =>
    by_cases hfits : required ≤ first.capacity
    · rw [takeCached?, if_pos hfits] at h
      cases h
      exact ⟨hfits, .refl _⟩
    · rw [takeCached?, if_neg hfits] at h
      obtain ⟨⟨found, left⟩, hrest, heq⟩ := Option.map_eq_some_iff.1 h
      cases heq
      obtain ⟨hroom, hperm⟩ := ih hrest
      exact ⟨hroom, (List.Perm.swap first blk left).trans (hperm.cons first)⟩

/-- With a block of the cache on top, a stack has the blocks that it had. -/
theorem blocks_of_cached {s : Stack} {required : Nat} {others : List Block} {blk : Block}
    (h : takeCached? required s.cache = some (blk, others)) :
    (blk :: (s.active ++ others)).Perm s.blocks :=
  List.perm_middle.symm.trans ((takeCached?_spec h).2.append_left s.active)

theorem volume_push (s : Stack) (blk : Block) (others : List Block) (n : Nat) :
    (s.push blk others n).volume = blk.capacity + s.volume := by
  show ((blk :: s.active).map Block.capacity).sum = _
  rw [List.map_cons, List.sum_cons]
  rfl

theorem WellFormed.push {s : Stack} (hs : s.WellFormed) {blk : Block} {others : List Block}
    (n : Nat) (hcursor : blk.cursor ≤ blk.capacity)
    (hbound : blk.base + blk.capacity < Word.count) (hothers : ∀ other ∈ others, other ∈ s.cache) :
    (s.push blk others n).WellFormed := by
  have hmem : ∀ other ∈ (s.push blk others n).blocks, other = blk ∨ other ∈ s.blocks := by
    intro other hother
    rcases List.mem_append.1 hother with hactive | hcache
    · exact (List.mem_cons.1 hactive).imp_right mem_blocks_of_active
    · exact Or.inr (mem_blocks_of_cache (hothers other hcache))
  refine ⟨?_, ?_, ?_, ?_⟩
  · intro other hother
    rcases hmem other hother with rfl | hold
    · exact hcursor
    · exact hs.cursor_le other hold
  · intro other hother
    rcases hmem other hother with rfl | hold
    · exact hbound
    · exact hs.bounded other hold
  · rw [volume_push, ← hs.capacity_eq]
    exact Nat.add_comm _ _
  · obtain ⟨newer, oldest, hactive, hbottom⟩ := hs.rooted
    refine ⟨blk :: newer, oldest, ?_, hbottom⟩
    show blk :: s.active = _
    rw [hactive]
    rfl

/-- A block of the cache keeps its region when it is put on top. -/
theorem Lodged.push_reused {m : Memory} {s : Stack} (hl : Lodged m s) {required : Nat}
    {blk : Block} {others : List Block} (serial n : Nat)
    (hcache : takeCached? required s.cache = some (blk, others)) :
    Lodged m (s.push (blk.recycle serial) others n) := by
  have hblocks := blocks_of_cached hcache
  have hperm : (s.push (blk.recycle serial) others n).regions.Perm s.regions :=
    hblocks.map Block.region
  refine ⟨fun other hother => ?_, hperm.nodup_iff.2 hl.distinct⟩
  rcases List.mem_cons.1 hother with rfl | hold
  · exact hl.housed blk (hblocks.subset List.mem_cons_self)
  · exact hl.housed other (hblocks.subset (List.mem_cons_of_mem blk hold))

/-- A block in a new region is put on top. -/
theorem Lodged.push_made {m : Memory} {s : Stack} (hl : Lodged m s) (blk : Block) (n : Nat)
    (hregion : blk.region = m.nextRegion) (scrap : Bytes) :
    Lodged (m.addRegion blk.base (Block.layoutOf blk.capacity) scrap) (s.push blk s.cache n) := by
  constructor
  · intro other hother
    rcases List.mem_cons.1 hother with rfl | hold
    · rw [hregion, Memory.extent?_addRegion_self]
      rfl
    · exact Memory.extent?_addRegion_of_some _ _ _ (hl.housed other hold)
  · refine List.nodup_cons.2 ⟨?_, hl.distinct⟩
    show blk.region ∉ s.regions
    rw [hregion]
    exact hl.notMem_of_extent?_none m.extent?_nextRegion

/-- With a further block on top, the capacity is still a word: all blocks lie apart in memory. -/
theorem WellFormed.capacity_push_lt {gap n : Nat} {m : Memory} {s : Stack} (hs : s.WellFormed)
    {blk : Block} {others : List Block} (hm : m.Spaced gap)
    (hl : Lodged m (s.push blk others n)) : s.capacity + blk.capacity < Word.count := by
  have hsum := hl.volume_lt hm
  rwa [volume_push, ← hs.capacity_eq, Nat.add_comm] at hsum

/-- What a growth gets to put on top, in the words of `Grow`. -/
theorem obtain_ends (p : Platform) (required n : Nat) (s : Stack) (h : Host) :
    (∃ blk others, takeCached? required s.cache = some (blk, others) ∧
      Stack.obtain p required s.nextSerial ({ s with nextSerial := n }, h)
        = .ok (blk.recycle s.nextSerial) ({ s with nextSerial := n, cache := others }, h)) ∨
    (takeCached? required s.cache = none ∧ ∃ base,
      p.placeRegion h.memory.outline (Block.layoutOf (s.newBlock h required base).capacity)
        = some base ∧
      required ≤ (s.newBlock h required base).capacity ∧
      (s.newBlock h required base).capacity ≤ Nat.pow 2 63 - Alignment.maxNatural ∧
      Stack.obtain p required s.nextSerial ({ s with nextSerial := n }, h)
        = .ok (s.newBlock h required base) ({ s with nextSerial := n },
          (s.announced required h).withRegion p base
            (Block.layoutOf (s.newBlock h required base).capacity))) ∨
    (takeCached? required s.cache = none ∧ ∃ f,
      Block.make p (s.growth.nextCapacity s.capacity required) s.nextSerial
        (s.announced required h) = .error f (s.announced required h) ∧
      Stack.obtain p required s.nextSerial ({ s with nextSerial := n }, h)
        = .error f ({ s with nextSerial := n }, s.announced required h)) := by
  have hemit : Host.emit (.growing s.id (s.growth.nextCapacity s.capacity required) s.capacity
      required) h = .ok () (s.announced required h) := rfl
  cases hcache : takeCached? required s.cache with
  | some found =>
    obtain ⟨blk, others⟩ := found
    refine Or.inl ⟨blk, others, rfl, ?_⟩
    rw [Stack.obtain, Action.self_bind]
    simp only [hcache]
    rfl
  | none =>
    refine Or.inr ?_
    have hrun : Stack.obtain p required s.nextSerial ({ s with nextSerial := n }, h)
        = Action.onHost (Block.make p (s.growth.nextCapacity s.capacity required) s.nextSerial)
          ({ s with nextSerial := n }, s.announced required h) := by
      rw [Stack.obtain, Action.self_bind]
      simp only [hcache]
      exact Action.bind_of_ok (Action.onHost_of_ok hemit)
    rcases Block.make_cases p (s.growth.nextCapacity s.capacity required) s.nextSerial
      (s.announced required h) with ⟨base, hplace, hmake, hsmall⟩ | ⟨f, hmake, -⟩
    · have hroom := Growth.le_nextCapacity (Nat.lt_of_le_of_lt hsmall (by decide))
      exact Or.inl ⟨rfl, base, hplace, hroom, hsmall, hrun.trans (Action.onHost_of_ok hmake)⟩
    · exact Or.inr ⟨rfl, f, hmake, hrun.trans (Action.onHost_of_error hmake)⟩

/-- Without a serial there is no growth. -/
theorem grow_of_full {p : Platform} {required : Nat} {s : Stack} {f : Fault} (h : Host)
    (hserial : p.build.add s.nextSerial 1 = .error f) :
    grow p required (s, h) = .error f (s, h) := by
  rw [grow, Action.self_bind, hserial]
  exact Action.bind_of_error rfl

/-- **A growth** ends in one of the ways of `Grow`: in memory that a sound heap keeps spaced, the
    sum of the capacities stays a word. -/
theorem grow_ends {p : Platform} {gap : Nat} (hp : p.Sound gap) (required : Nat) {s : Stack}
    {h : Host} (hset : Settled gap s h) :
    Grow p required s h (Action.after (grow p required) (s, h)) := by
  cases hserial : p.build.add s.nextSerial 1 with
  | error f =>
    rw [Action.after_of_error (grow_of_full h hserial)]
    exact .serialsOut hserial
  | ok n =>
    have hrun : grow p required (s, h)
        = (Stack.obtain p required s.nextSerial >>= fun blk => do
            let s ← Action.self
            let capacity ← p.build.add s.capacity blk.capacity
            Action.setSelf { s with current := blk, below := s.active, capacity })
          ({ s with nextSerial := n }, h) := by
      rw [grow, Action.self_bind, hserial]
      rfl
    -- A block from the cache and a new one are put on top alike.
    have hput : ∀ (blk : Block) (others : List Block) (h' : Host),
        s.capacity + blk.capacity < Word.count →
        Stack.obtain p required s.nextSerial ({ s with nextSerial := n }, h)
          = .ok blk ({ s with nextSerial := n, cache := others }, h') →
        grow p required (s, h) = .ok () (s.push blk others n, h') := by
      intro blk others h' hsum hblk
      rw [hrun, Action.bind_of_ok hblk, Action.self_bind]
      show ((liftM (p.build.add s.capacity blk.capacity) : Action Stack Nat) >>= _) _ = _
      rw [p.build.add_of_lt hsum, Action.check_bind]
      rfl
    rcases obtain_ends p required n s h with ⟨blk, others, hcache, hblk⟩ |
      ⟨hcache, base, hplace, hroom, hsmall, hblk⟩ | ⟨hcache, f, hmake, hblk⟩
    · have hsum := hset.wellFormed.capacity_push_lt hset.spaced
        (hset.lodged.push_reused s.nextSerial n hcache)
      rw [Action.after_of_ok (hput _ _ _ hsum hblk)]
      exact .reused hserial hcache
    · have hsum := hset.wellFormed.capacity_push_lt
        (hset.spaced.addRegion hp hplace (p.scrap h.memory.nextRegion))
        (hset.lodged.push_made (s.newBlock h required base) n rfl _)
      rw [Action.after_of_ok (hput _ s.cache _ hsum hblk)]
      exact .made hserial hcache hplace hroom hsmall
    · rw [Action.after_of_error (hrun.trans (Action.bind_of_error hblk))]
      exact .noBlock hserial hcache hmake

/-- A growth that succeeds has put an empty block with room on top, under the next serial. -/
theorem Grow.push_eq {p : Platform} {required : Nat} {s s' : Stack} {h h' : Host}
    (hgrow : Grow p required s h (.ok (), s', h')) :
    ∃ blk others n, s' = s.push blk others n ∧ blk.cursor = 0 ∧ blk.serial = s.nextSerial ∧
      p.build.add s.nextSerial 1 = .ok n ∧ required ≤ blk.capacity := by
  cases hgrow with
  | reused hserial hcache =>
    have hroom := (takeCached?_spec hcache).1
    exact ⟨_, _, _, rfl, rfl, rfl, hserial, hroom⟩
  | made hserial hcache hplace hroom => exact ⟨_, _, _, rfl, rfl, rfl, hserial, hroom⟩

/-- A growth that fails has left the active blocks and the books as they were. -/
theorem Grow.of_error {p : Platform} {required : Nat} {s s' : Stack} {h h' : Host} {f : Fault}
    (hgrow : Grow p required s h (.error f, s', h')) :
    s' = s ∨ ∃ n, p.build.add s.nextSerial 1 = .ok n ∧ s' = { s with nextSerial := n } := by
  cases hgrow with
  | serialsOut => exact Or.inl rfl
  | noBlock hserial hcache hmake => exact Or.inr ⟨_, hserial, rfl⟩

/-- A growth moves its stack. -/
theorem Grow.moves {p : Platform} {gap required : Nat} (hp : p.Sound gap) {s s' : Stack}
    {h h' : Host} {out : Except Fault Unit} (hset : Settled gap s h)
    (hgrow : Grow p required s h (out, s', h')) : Moves gap s h s' h' := by
  cases hgrow with
  | @reused n blk others hserial hcache =>
    have hblocks := blocks_of_cached hcache
    have hblk : blk ∈ s.blocks := hblocks.subset List.mem_cons_self
    have hmem : ∀ other ∈ others, other ∈ s.cache := fun other hother =>
      (takeCached?_spec hcache).2.subset (List.mem_cons_of_mem blk hother)
    refine hset.moves_of_regions
      (hset.wellFormed.push n (Nat.zero_le _) (hset.wellFormed.bounded blk hblk) hmem) rfl rfl
      (fun k => rfl) (fun blk' hblk' => ?_)
      (hset.lodged.push_reused s.nextSerial n hcache).distinct
    rcases List.mem_cons.1 hblk' with rfl | hold
    · exact ⟨blk, hblk, rfl, rfl⟩
    · exact ⟨blk', hblocks.subset (List.mem_cons_of_mem blk hold), rfl, rfl⟩
  | @made n base hserial hcache hplace =>
    refine ⟨⟨hset.wellFormed.push n (Nat.zero_le _) (hp.bounded _ _ _ hplace)
      fun other hother => hother,
      hset.lodged.push_made (s.newBlock h required base) n rfl _,
      hset.spaced.addRegion hp hplace _⟩, rfl, rfl, ?_, ?_⟩
    · intro k x _ hx
      exact Memory.extent?_addRegion_of_some _ _ _ hx
    · intro k hk
      rcases List.mem_cons.1 hk with rfl | hold
      · exact Or.inr h.memory.extent?_nextRegion
      · exact Or.inl hold
  | serialsOut => exact hset.moves_refl
  | noBlock =>
    have hs := hset.wellFormed
    exact hset.moves_of_regions ⟨hs.cursor_le, hs.bounded, hs.capacity_eq, hs.rooted⟩ rfl rfl
      (fun k => rfl) (fun blk' hblk' => ⟨blk', hblk', rfl, rfl⟩) hset.lodged.distinct

/-! ## Serve -/

/-- `Serves p r s h end`: the ends of a request in either form.  Only `tryAllocate` declines
    (`bumped` with no address), only `allocate` goes on after the first step. -/
inductive Serves (p : Platform) (r : Request) (s : Stack) (h : Host) :
    Except Fault (Option Nat) × Stack × Host → Prop
  | misaligned (hbuild : p.build = .debug) (hinvalid : Alignment.isValid r.alignment = false) :
      Serves p r s h (.error (.badAlignment r.alignment), s, h)
  | bumped {out : Except Fault (Option Nat) × Stack × Host} (hbump : Bump p r s h out) :
      Serves p r s h out
  | oversized (hspan : s.current.span? r = none) (hroom : r.room? = none) :
      Serves p r s h (.error (.requestOverflow r.size r.alignment), s, h)
  | starved {required : Nat} {f : Fault} {s' : Stack} {h' : Host}
      (hspan : s.current.span? r = none) (hroom : r.room? = some required)
      (hgrow : Grow p required s h (.error f, s', h')) :
      Serves p r s h (.error f, s', h')
  | full {required : Nat} {s' : Stack} {h' : Host}
      (hspan : s.current.span? r = none) (hroom : r.room? = some required)
      (hgrow : Grow p required s h (.ok (), s', h')) (hfull : s'.current.span? r = none) :
      Serves p r s h (.error .freshBlockFull, s', h')
  | grown {required : Nat} {s' : Stack} {h' : Host}
      {out : Except Fault (Option Nat) × Stack × Host}
      (hspan : s.current.span? r = none) (hroom : r.room? = some required)
      (hgrow : Grow p required s h (.ok (), s', h')) (hbump : Bump p r s' h' out) :
      Serves p r s h out

/-- **What a request keeps**: it takes at most one growth and then one step in the current block, so
    what holds at its start, and is brought about by growths and kept by steps, holds at its end. -/
theorem Serves.keeps {p : Platform} {r : Request} {s s' : Stack} {h h' : Host}
    {out : Except Fault (Option Nat)} (hserves : Serves p r s h (out, s', h'))
    {P : Stack → Host → Prop} (hstart : P s h)
    (hgrow : ∀ {required out s₁ h₁}, Grow p required s h (out, s₁, h₁) → P s₁ h₁)
    (hbump : ∀ {s₁ h₁ out s₂ h₂}, P s₁ h₁ → Bump p r s₁ h₁ (out, s₂, h₂) → P s₂ h₂) :
    P s' h' := by
  cases hserves with
  | misaligned => exact hstart
  | bumped hstep => exact hbump hstart hstep
  | oversized => exact hstart
  | starved hspan hroom hgrown => exact hgrow hgrown
  | full hspan hroom hgrown hfull => exact hgrow hgrown
  | grown hspan hroom hgrown hstep => exact hbump (hgrow hgrown) hstep

section

variable {p : Platform} {gap : Nat} {r : Request} {s : Stack} {h : Host}

/-- A request is only stopped for its alignment by a debug build. -/
theorem invalid_of_not (hvalid : ¬(p.build = .release ∨ Alignment.isValid r.alignment = true)) :
    p.build = .debug ∧ Alignment.isValid r.alignment = false := by
  rw [not_or, Bool.not_eq_true] at hvalid
  exact ⟨Build.eq_debug_iff.2 hvalid.1, hvalid.2⟩

/-- **A request that may not grow the stack** is one to the current block, unless a debug build
    stops it for its alignment. -/
theorem tryAllocate_ends (hs : s.WellFormed) :
    Bump p r s h (Action.after (tryAllocate p r) (s, h)) ∨
      (Alignment.isValid r.alignment = false ∧
        tryAllocate p r (s, h) = .error (.badAlignment r.alignment) (s, h)) := by
  by_cases hvalid : p.build = .release ∨ Alignment.isValid r.alignment = true
  · have hrun : Action.after (tryAllocate p r) (s, h) = Action.after (bump p r) (s, h) := by
      rw [tryAllocate, Build.require_of_holds _ hvalid]
      rfl
    rw [hrun]
    exact Or.inl (bump_ends h hs hvalid)
  · obtain ⟨hbuild, hinvalid⟩ := invalid_of_not hvalid
    refine Or.inr ⟨hinvalid, ?_⟩
    rw [tryAllocate, hbuild, hinvalid]
    rfl

/-- A debug build stops a request that may grow the stack for its alignment, too. -/
theorem allocate_misaligned (s : Stack) (h : Host) (hbuild : p.build = .debug)
    (hinvalid : Alignment.isValid r.alignment = false) :
    allocate p r (s, h) = .error (.badAlignment r.alignment) (s, h) := by
  rw [allocate, hbuild, hinvalid]
  rfl

/-- **A request that may grow the stack** ends in one of the ways of `Serves`. -/
theorem allocate_ends (hp : p.Sound gap) (hset : Settled gap s h) :
    Serves p r s h (Action.after (some <$> allocate p r) (s, h)) := by
  rw [Action.after_map]
  by_cases hvalid : p.build = .release ∨ Alignment.isValid r.alignment = true
  · rw [allocate, Build.require_of_holds _ hvalid, Action.check_bind, Action.after_bind]
    have hfirst := bump_ends (r := r) h hset.wellFormed hvalid
    generalize Action.after (bump p r) (s, h) = first at hfirst ⊢
    cases hfirst with
    | overdrawn hspan hout => exact .bumped (.overdrawn hspan hout)
    | served hspan hout => exact .bumped (.served hspan hout)
    | declined hspan =>
      cases hroom : r.room? with
      | none => exact .oversized hspan hroom
      | some required =>
        simp only [Action.after_bind]
        have hgrow := grow_ends hp required hset
        generalize hg : Action.after (grow p required) (s, h) = grown at hgrow ⊢
        obtain ⟨out, s', h'⟩ := grown
        cases out with
        | error f => exact .starved hspan hroom hgrow
        | ok u =>
          -- The stack has grown and is settled, so the second step has the ends of the first.
          have hagain := bump_ends (r := r) h' (hgrow.moves hp hset).settled.wellFormed hvalid
          dsimp only
          generalize Action.after (bump p r) (s', h') = second at hagain ⊢
          cases hagain with
          | declined hfull => exact .full hspan hroom hgrow hfull
          | overdrawn hspan' hout => exact .grown hspan hroom hgrow (.overdrawn hspan' hout)
          | served hspan' hout => exact .grown hspan hroom hgrow (.served hspan' hout)
  · obtain ⟨hbuild, hinvalid⟩ := invalid_of_not hvalid
    rw [Action.after_of_error (allocate_misaligned s h hbuild hinvalid)]
    exact .misaligned hbuild hinvalid

/-- **A request moves its stack**, however it ends. -/
theorem Serves.moves (hp : p.Sound gap) {s' : Stack} {h' : Host}
    {out : Except Fault (Option Nat)} (hset : Settled gap s h)
    (hserves : Serves p r s h (out, s', h')) : Moves gap s h s' h' := by
  refine hserves.keeps hset.moves_refl (fun hgrow => hgrow.moves hp hset) ?_
  intro s₁ h₁ out s₂ h₂ hfirst hbump
  exact hfirst.trans (hbump.moves hfirst.settled)

end

end Stack

end StackArena
