/-
  What unwinding does to a stack.

  An unwind drops blocks from the top, moves the cursor of the block that is left back, and takes
  the outstanding bytes from the marker.  All three are functions of the stack alone: `dropped`,
  `rewound` and `unwound`.  What happens to the host meanwhile (bytes overwritten, blocks freed,
  an event) is `cleared` and `swept`.

  `unwind_of_accepted` says that an unwind that a debug build accepts, and every one of a release
  build, is exactly that, and no internal check fires; `unwind_of_objection` that a debug build
  stops otherwise, with nothing done.  In both cases the stack moves (`unwound_moves`).  The journal
  tells then of the regions that were freed and of the unwind, and of nothing else (`journal_swept`).
-/
import StackArena.Proofs.Shape
import StackArena.Stack.Unwind

namespace StackArena

/-- The host after a region was freed and the fact noted. -/
def Host.withoutRegion (h : Host) (number : Nat) : Host :=
  { h with
    memory := h.memory.freeRegion number
    journal := h.journal ++ [.freed number] }

namespace Stack

/-! ## Dropping blocks -/

/-- The stack without its current block, which goes to the cache if the configuration says so.  The
    oldest block stays. -/
def dropCurrent (s : Stack) : Stack :=
  match s.below with
  | [] => s
  | next :: below =>
    { s with
      current := next
      below
      capacity := s.capacity - s.current.capacity
      cache := match s.retention with
        | .release => s.cache
        | .cache => s.current :: s.cache }

/-- The stack after so many blocks were dropped. -/
def dropped : Nat → Stack → Stack
  | 0, s => s
  | n + 1, s => dropped n s.dropCurrent

/-- The host after the current block was overwritten and freed, as far as the stack does that. -/
def clearedCurrent (s : Stack) (h : Host) : Host :=
  let h := s.painted h 0 s.current.cursor Config.freedPattern
  match s.retention with
  | .release => h.withoutRegion s.current.region
  | .cache => h

/-- The host after so many blocks were dropped. -/
def cleared : Nat → Stack → Host → Host
  | 0, _, h => h
  | n + 1, s, h => cleared n s.dropCurrent (s.clearedCurrent h)

/-- The oldest block stays. -/
theorem dropCurrent_of_nil {s : Stack} (hbelow : s.below = []) : s.dropCurrent = s := by
  rw [dropCurrent, hbelow]

/-- What dropping the current block of a stack with one below it comes to. -/
theorem dropCurrent_of_below {s : Stack} {next : Block} {below : List Block}
    (hbelow : s.below = next :: below) :
    s.dropCurrent = { s with
      current := next
      below
      capacity := s.capacity - s.current.capacity
      cache := match s.retention with
        | .release => s.cache
        | .cache => s.current :: s.cache } := by
  rw [dropCurrent, hbelow]

/-- The current block is released; the checks of the capacity and of the bytes overwritten pass. -/
theorem releaseCurrent_apply (p : Platform) {s : Stack} (h : Host) (hs : s.WellFormed)
    {next : Block} {below : List Block} (hbelow : s.below = next :: below) :
    releaseCurrent p (s, h) = .ok () (s.dropCurrent, s.clearedCurrent h) := by
  have hcap : s.current.capacity ≤ s.capacity := by
    rw [hs.capacity_eq, volume, active, List.map_cons, List.sum_cons]
    exact Nat.le_add_right _ _
  have hfill : s.current.fill 0 s.current.cursor Config.freedPattern h
      = .ok () (h.filled s.current.region 0 s.current.cursor Config.freedPattern) :=
    Block.fill_apply s.current _ h (by rw [Nat.zero_add]; exact hs.current_le) hs.current_lt
  rw [dropCurrent_of_below hbelow, clearedCurrent, painted, releaseCurrent, Action.self_bind]
  simp only [hbelow, p.build.sub_of_le hcap]
  cases hfilled : s.fill with
  | false =>
    cases hret : s.retention with
    | release => rfl
    | cache => rfl
  | true =>
    refine (Action.bind_of_ok (Action.onHost_of_ok hfill)).trans ?_
    cases hret : s.retention with
    | release => rfl
    | cache => rfl

/-- Dropping touches the blocks of a stack and their capacity, and nothing else. -/
theorem dropCurrent_eq (s : Stack) : ∃ current below cache capacity,
    s.dropCurrent = { s with current, below, cache, capacity } := by
  cases hbelow : s.below with
  | nil => exact ⟨s.current, s.below, s.cache, s.capacity, dropCurrent_of_nil hbelow⟩
  | cons next below => exact ⟨_, _, _, _, dropCurrent_of_below hbelow⟩

@[simp] theorem retention_dropCurrent (s : Stack) : s.dropCurrent.retention = s.retention := by
  obtain ⟨current, below, cache, capacity, heq⟩ := dropCurrent_eq s
  rw [heq]

@[simp] theorem fill_dropCurrent (s : Stack) : s.dropCurrent.fill = s.fill := by
  obtain ⟨current, below, cache, capacity, heq⟩ := dropCurrent_eq s
  rw [heq]

theorem dropped_eq (n : Nat) (s : Stack) : ∃ current below cache capacity,
    dropped n s = { s with current, below, cache, capacity } := by
  induction n generalizing s with
  | zero => exact ⟨s.current, s.below, s.cache, s.capacity, rfl⟩
  | succ n ih =>
    obtain ⟨current, below, cache, capacity, hfirst⟩ := dropCurrent_eq s
    obtain ⟨current', below', cache', capacity', hrest⟩ := ih s.dropCurrent
    exact ⟨current', below', cache', capacity', by rw [dropped, hrest, hfirst]⟩

theorem active_dropCurrent {s : Stack} (hbelow : s.below ≠ []) :
    s.dropCurrent.active = s.below := by
  obtain ⟨next, below, hcons⟩ := List.exists_cons_of_ne_nil hbelow
  rw [dropCurrent_of_below hcons, hcons]
  rfl

/-- Dropping takes one of the blocks below, as long as there is one. -/
theorem length_below_dropCurrent (s : Stack) :
    s.dropCurrent.below.length = s.below.length - 1 := by
  cases hbelow : s.below with
  | nil => rw [dropCurrent_of_nil hbelow, hbelow]; rfl
  | cons next below => rw [dropCurrent_of_below hbelow]; rfl

/-- As long as blocks are left, the active ones are the older ones. -/
theorem active_dropped {n : Nat} {s : Stack} (hn : n ≤ s.below.length) :
    (dropped n s).active = s.active.drop n := by
  induction n generalizing s with
  | zero => rfl
  | succ n ih =>
    have hlength := s.length_below_dropCurrent
    have hne : s.below ≠ [] := List.ne_nil_of_length_pos (by omega)
    rw [dropped, ih (by omega), active_dropCurrent hne]
    rfl

/-- Wherever the dropped block goes, no block is in the stack that was not there before. -/
theorem mem_blocks_of_dropCurrent {s : Stack} {blk : Block} (hblk : blk ∈ s.dropCurrent.blocks) :
    blk ∈ s.blocks := by
  cases hbelow : s.below with
  | nil =>
    rw [dropCurrent_of_nil hbelow] at hblk
    exact hblk
  | cons next below =>
    rw [dropCurrent_of_below hbelow] at hblk
    rw [blocks, active, hbelow]
    rcases List.mem_append.1 hblk with hactive | hcache
    · exact List.mem_append_left _ (List.mem_cons_of_mem _ hactive)
    · cases hret : s.retention with
      | release =>
        rw [hret] at hcache
        exact List.mem_append_right _ hcache
      | cache =>
        rw [hret] at hcache
        rcases List.mem_cons.1 hcache with rfl | hold
        · exact List.mem_append_left _ List.mem_cons_self
        · exact List.mem_append_right _ hold

theorem mem_blocks_of_dropped {n : Nat} {s : Stack} {blk : Block}
    (hblk : blk ∈ (dropped n s).blocks) : blk ∈ s.blocks := by
  induction n generalizing s with
  | zero => exact hblk
  | succ n ih => exact mem_blocks_of_dropCurrent (ih hblk)

/-- A stack without its current block is well formed. -/
theorem WellFormed.dropCurrent {s : Stack} (hs : s.WellFormed) : s.dropCurrent.WellFormed := by
  cases hbelow : s.below with
  | nil =>
    rw [dropCurrent_of_nil hbelow]
    exact hs
  | cons next below =>
    refine ⟨fun blk hblk => hs.cursor_le blk (mem_blocks_of_dropCurrent hblk),
      fun blk hblk => hs.bounded blk (mem_blocks_of_dropCurrent hblk), ?_, ?_⟩
    · have hvolume : s.volume = s.current.capacity + ((next :: below).map Block.capacity).sum := by
        rw [volume, active, hbelow, List.map_cons, List.sum_cons]
      rw [dropCurrent_of_below hbelow]
      show s.capacity - s.current.capacity = ((next :: below).map Block.capacity).sum
      rw [hs.capacity_eq, hvolume]
      omega
    · obtain ⟨newer, oldest, hactive, hbottom⟩ := hs.rooted
      have hdrop : s.dropCurrent.active = next :: below := by
        rw [active_dropCurrent (by rw [hbelow]; exact List.cons_ne_nil _ _), hbelow]
      obtain ⟨current', below', cache', capacity', heq⟩ := dropCurrent_eq s
      have hroot : s.dropCurrent.bottom = ⟨s.dropCurrent.id, 1, oldest.serial, 0, 0⟩ := by
        rw [heq]
        exact hbottom
      rw [active, hbelow] at hactive
      -- The dropped block is not the oldest: there is one below it.
      cases newer with
      | nil => cases (List.cons.inj hactive).2
      | cons top newer => exact ⟨newer, oldest, hdrop.trans (List.cons.inj hactive).2, hroot⟩

theorem WellFormed.dropped {s : Stack} (hs : s.WellFormed) (n : Nat) :
    (Stack.dropped n s).WellFormed := by
  induction n generalizing s with
  | zero => exact hs
  | succ n ih => exact ih hs.dropCurrent

/-- So many blocks are released. -/
theorem releaseBlocks_apply (p : Platform) {n : Nat} {s : Stack} (h : Host) (hs : s.WellFormed)
    (hn : n ≤ s.below.length) :
    releaseBlocks p n (s, h) = .ok () (dropped n s, cleared n s h) := by
  induction n generalizing s h with
  | zero => rfl
  | succ n ih =>
    have hlength := s.length_below_dropCurrent
    obtain ⟨next, below, hbelow⟩ := List.exists_cons_of_length_pos (Nat.zero_lt_of_lt hn)
    rw [releaseBlocks, Action.bind_of_ok (releaseCurrent_apply p h hs hbelow)]
    exact ih (s.clearedCurrent h) hs.dropCurrent (by omega)

/-! ## Dropping as a move -/

/-- Freeing a region leaves the other ones as they are. -/
@[simp] theorem extent?_withoutRegion_ne {h : Host} {number n : Nat} (hne : n ≠ number) :
    (h.withoutRegion number).memory.extent? n = h.memory.extent? n :=
  Memory.extent?_freeRegion_ne hne

/-- Of a stack that keeps released blocks, dropping one leaves the blocks as they were. -/
theorem dropCurrent_kept {s : Stack} (hbelow : s.below ≠ []) (hret : s.retention = .cache) :
    s.dropCurrent.blocks.Perm s.blocks := by
  obtain ⟨next, below, hcons⟩ := List.exists_cons_of_ne_nil hbelow
  have hblocks : s.dropCurrent.blocks = s.below ++ s.current :: s.cache := by
    rw [dropCurrent_of_below hcons, blocks, active, hcons, hret]
  rw [hblocks]
  exact List.perm_middle

/-- Of one that does not, the current block is gone. -/
theorem dropCurrent_released {s : Stack} (hbelow : s.below ≠ []) (hret : s.retention = .release) :
    s.dropCurrent.blocks = s.below ++ s.cache := by
  obtain ⟨next, below, hcons⟩ := List.exists_cons_of_ne_nil hbelow
  rw [dropCurrent_of_below hcons, blocks, active, hcons, hret]

/-- Dropping the current block moves a stack that has one below it. -/
theorem dropCurrent_moves {gap : Nat} {s : Stack} {h : Host} (hset : Settled gap s h)
    (hbelow : s.below ≠ []) : Moves gap s h s.dropCurrent (s.clearedCurrent h) := by
  obtain ⟨next, below, hcons⟩ := List.exists_cons_of_ne_nil hbelow
  have hs := hset.wellFormed.dropCurrent
  have hregions : s.regions = s.current.region :: (s.below ++ s.cache).map Block.region := rfl
  unfold clearedCurrent
  cases hret : s.retention with
  | cache =>
    have hperm := dropCurrent_kept hbelow hret
    refine hset.moves_of_regions hs (by rw [dropCurrent_of_below hcons]) ?_ ?_
      (fun blk' hblk' => ⟨blk', hperm.mem_iff.1 hblk', rfl, rfl⟩)
      ((hperm.map Block.region).nodup_iff.2 hset.lodged.distinct)
    · exact s.lastId_painted h _ _ _
    · intro n
      exact s.extent?_painted h _ _ n _
  | release =>
    have hblocks := dropCurrent_released hbelow hret
    have hdistinct := hset.lodged.distinct
    rw [hregions] at hdistinct
    obtain ⟨hnew, hrest⟩ := List.nodup_cons.1 hdistinct
    refine hset.moves_of_kept hs (by rw [dropCurrent_of_below hcons]) (s.lastId_painted h _ _ _)
      ((hset.spaced.congr fun n => s.extent?_painted h _ _ n _).freeRegion _) ?_ ?_ ?_
    · -- Only the region of the dropped block has changed, and that is neither kept nor foreign.
      intro n hn
      have hne : n ≠ s.current.region := by
        rintro rfl
        rcases hn with hkept | hforeign
        · rw [regions, hblocks] at hkept
          exact hnew hkept
        · exact hforeign (mem_regions_of_block s.current_mem_blocks)
      rw [extent?_withoutRegion_ne hne, extent?_painted]
    · intro blk hblk
      rw [hblocks] at hblk
      exact ⟨blk, List.mem_cons_of_mem _ hblk, rfl, rfl⟩
    · rw [regions, hblocks]
      exact hrest

/-- Dropping blocks moves a stack, as long as one is left. -/
theorem dropped_moves {gap n : Nat} {s : Stack} {h : Host} (hset : Settled gap s h)
    (hn : n ≤ s.below.length) : Moves gap s h (dropped n s) (cleared n s h) := by
  induction n generalizing s h with
  | zero => exact hset.moves_refl
  | succ n ih =>
    have hlength := s.length_below_dropCurrent
    have hfirst := dropCurrent_moves hset (List.ne_nil_of_length_pos (Nat.zero_lt_of_lt hn))
    exact hfirst.trans (ih hfirst.settled (by omega))

/-! ## Unwinding -/

/-- The number of blocks that an unwind to a depth drops. -/
def surplus (s : Stack) (depth : Nat) : Nat := s.blockCount - s.keptDepth depth

/-- The stack with the cursor of its current block moved back. -/
def rewound (offset : Nat) (s : Stack) : Stack :=
  { s with current := { s.current with cursor := min offset s.current.cursor } }

/-- The stack after an unwind. -/
def unwound (m : Marker) (s : Stack) : Stack :=
  { (dropped (s.surplus m.depth) s).rewound m.offset with
    outstanding := min m.outstanding s.outstanding }

/-- The host after blocks were dropped, with the event that tells of it. -/
def lessened (s : Stack) (depth : Nat) (h : Host) : Host :=
  let h := cleared (s.surplus depth) s h
  if 0 < s.surplus depth then
    { h with
      journal := h.journal ++ [.event (.unwound s.id (s.surplus depth) (s.keptDepth depth))] }
  else h

/-- The host after an unwind. -/
def swept (m : Marker) (s : Stack) (h : Host) : Host :=
  let t := dropped (s.surplus m.depth) s
  let offset := min m.offset t.current.cursor
  t.painted (s.lessened m.depth h) offset (t.current.cursor - offset) Config.freedPattern

/-- An unwind touches the blocks of a stack and the two sums on its books, and nothing else. -/
theorem unwound_eq (m : Marker) (s : Stack) : ∃ current below cache capacity outstanding,
    s.unwound m = { s with current, below, cache, capacity, outstanding } := by
  obtain ⟨current, below, cache, capacity, heq⟩ := dropped_eq (s.surplus m.depth) s
  exact ⟨_, _, _, _, _, by rw [unwound, heq]; rfl⟩

section

variable (m : Marker) (s : Stack)

@[simp] theorem id_unwound : (s.unwound m).id = s.id := by
  obtain ⟨current, below, cache, capacity, outstanding, heq⟩ := unwound_eq m s
  rw [heq]

@[simp] theorem retention_unwound : (s.unwound m).retention = s.retention := by
  obtain ⟨current, below, cache, capacity, outstanding, heq⟩ := unwound_eq m s
  rw [heq]

@[simp] theorem fill_unwound : (s.unwound m).fill = s.fill := by
  obtain ⟨current, below, cache, capacity, outstanding, heq⟩ := unwound_eq m s
  rw [heq]

@[simp] theorem nextSerial_unwound : (s.unwound m).nextSerial = s.nextSerial := by
  obtain ⟨current, below, cache, capacity, outstanding, heq⟩ := unwound_eq m s
  rw [heq]

end

theorem surplus_le (s : Stack) (depth : Nat) : s.surplus depth ≤ s.below.length := by
  unfold surplus keptDepth blockCount
  omega

/-- The active blocks after an unwind are the older ones, the newest of them with its cursor moved
    back. -/
theorem active_unwound (m : Marker) (s : Stack) : ∃ blk rest,
    s.active.drop (s.surplus m.depth) = blk :: rest ∧
      (s.unwound m).current = { blk with cursor := min m.offset blk.cursor } ∧
      (s.unwound m).below = rest :=
  ⟨_, _, (active_dropped (s.surplus_le m.depth)).symm, rfl, rfl⟩

/-- The blocks after an unwind were all there before it, as to everything but the cursor. -/
theorem mem_blocks_of_unwound {m : Marker} {s : Stack} {blk : Block}
    (hblk : blk ∈ (s.unwound m).blocks) :
    ∃ old ∈ s.blocks, ∃ cursor, blk = { old with cursor } := by
  rcases List.mem_cons.1 hblk with rfl | hold
  · exact ⟨_, mem_blocks_of_dropped (dropped (s.surplus m.depth) s).current_mem_blocks, _, rfl⟩
  · exact ⟨blk, mem_blocks_of_dropped (List.mem_cons_of_mem _ hold), blk.cursor, rfl⟩

/-- The current block is taken back; the checks of the lengths pass. -/
theorem rewindCurrent_apply (p : Platform) (offset : Nat) {s : Stack} (h : Host)
    (hs : s.WellFormed) :
    rewindCurrent p offset (s, h) = .ok () (s.rewound offset,
      s.painted h (min offset s.current.cursor) (s.current.cursor - min offset s.current.cursor)
        Config.freedPattern) := by
  have hle : min offset s.current.cursor ≤ s.current.cursor := Nat.min_le_right _ _
  have hcursor := hs.current_le
  have hfill : s.current.fill (min offset s.current.cursor)
      (s.current.cursor - min offset s.current.cursor) Config.freedPattern h
      = .ok () (h.filled s.current.region (min offset s.current.cursor)
        (s.current.cursor - min offset s.current.cursor) Config.freedPattern) :=
    Block.fill_apply s.current _ h (by omega) hs.current_lt
  have hrewind : s.current.rewind p.build (min offset s.current.cursor)
      = .ok { s.current with cursor := min offset s.current.cursor } := by
    rw [Block.rewind, Build.require_of_holds _ (Or.inr (decide_eq_true hle)), Except.ok_bind,
      Nat.min_eq_left hle]
    rfl
  rw [rewindCurrent, Action.self_bind]
  unfold painted
  simp only [p.build.sub_of_le hle, hrewind]
  by_cases hfilled : s.fill = true
  · rw [if_pos hfilled, if_pos hfilled]
    exact (Action.bind_of_ok (Action.onHost_of_ok hfill)).trans rfl
  · rw [if_neg hfilled, if_neg hfilled]
    rfl

/-- The whole of an unwind, after the check of the marker. -/
theorem unwind_of_checked {p : Platform} {m : Marker} {s : Stack} (h : Host) (hs : s.WellFormed)
    (hcheck : s.checkMarker p.build m = .ok ()) :
    unwind p m (s, h) = .ok () (s.unwound m, s.swept m h) := by
  have hrelease := releaseBlocks_apply p h hs (s.surplus_le m.depth)
  have htop : (dropped (s.surplus m.depth) s).WellFormed := hs.dropped _
  -- The event is told only if blocks were dropped, and the rest of the unwind is the same.
  have hemit : ∀ (rest : Unit → Action Stack Unit) (t : Stack), (if 0 < s.surplus m.depth then do
        let told ← (Host.emit (.unwound s.id (s.surplus m.depth) (s.keptDepth m.depth)) :
          HostAction Unit)
        rest told
        else rest ()) (t, cleared (s.surplus m.depth) s h)
      = rest () (t, s.lessened m.depth h) := by
    intro rest t
    unfold lessened
    by_cases hpos : 0 < s.surplus m.depth
    · rw [if_pos hpos, if_pos hpos]
      rfl
    · rw [if_neg hpos, if_neg hpos]
  obtain ⟨current, below, cache, capacity, heq⟩ := dropped_eq (s.surplus m.depth) s
  have houtstanding : (dropped (s.surplus m.depth) s).outstanding = s.outstanding := by rw [heq]
  rw [unwind, Action.self_bind, hcheck, Action.check_bind]
  refine (Action.bind_of_ok hrelease).trans ?_
  refine (hemit _ _).trans ?_
  refine (Action.bind_of_ok (rewindCurrent_apply p m.offset _ htop)).trans ?_
  rw [unwound, ← houtstanding]
  rfl

/-- **An accepted unwind** takes the stack back; so does every one in a release build. -/
theorem unwind_of_accepted {p : Platform} {m : Marker} {s : Stack} (h : Host) (hs : s.WellFormed)
    (hok : p.build = .release ∨ s.objection? m = none) :
    unwind p m (s, h) = .ok () (s.unwound m, s.swept m h) := by
  refine unwind_of_checked h hs ?_
  unfold checkMarker
  rcases hok with hrelease | hnone
  · rw [hrelease]
  · rw [hnone]
    cases p.build <;> rfl

/-- **A debug build stops** on a marker that it objects to, with nothing done. -/
theorem unwind_of_objection {p : Platform} {m : Marker} {s : Stack} (h : Host) {f : Fault}
    (hbuild : p.build = .debug) (hobjection : s.objection? m = some f) :
    unwind p m (s, h) = .error f (s, h) := by
  have hcheck : s.checkMarker p.build m = .error f := by
    unfold checkMarker
    rw [hbuild, hobjection]
  rw [unwind, Action.self_bind, hcheck]
  exact Action.bind_of_error rfl

/-- An unwind moves its stack. -/
theorem unwound_moves {gap : Nat} {m : Marker} {s : Stack} {h : Host} (hset : Settled gap s h) :
    Moves gap s h (s.unwound m) (s.swept m h) := by
  have hdrop := dropped_moves hset (s.surplus_le m.depth)
  refine hdrop.trans ?_
  refine hdrop.settled.moves_turn (min m.outstanding s.outstanding)
    (Nat.le_trans (Nat.min_le_right _ _) hdrop.settled.wellFormed.current_le) ?_ ?_
  · rw [swept, lastId_painted, lessened]
    split <;> rfl
  · intro n
    rw [swept, extent?_painted, lessened]
    split <;> rfl

/-! ## The journal -/

/-- The regions that are freed when so many blocks are dropped, in order. -/
def parted (s : Stack) (n : Nat) : List Nat :=
  match s.retention with
  | .release => (s.active.take n).map Block.region
  | .cache => []

/-- What an unwind tells of the blocks that it drops, if there are any. -/
def told (s : Stack) (depth : Nat) : List Note :=
  if 0 < s.surplus depth then [.event (.unwound s.id (s.surplus depth) (s.keptDepth depth))] else []

theorem parted_of_cache {s : Stack} {n : Nat} (hretention : s.retention = .cache) :
    s.parted n = [] := by
  rw [parted, hretention]

@[simp] theorem parted_zero (s : Stack) : s.parted 0 = [] := by
  unfold parted
  cases s.retention <;> rfl

/-- Of the blocks that are dropped the journal tells what is freed; the hook stays. -/
theorem journal_cleared {n : Nat} {s : Stack} {h : Host} (hn : n ≤ s.below.length) :
    (cleared n s h).journal = h.journal ++ (s.parted n).map .freed ∧
      (cleared n s h).hook = h.hook := by
  induction n generalizing s h with
  | zero =>
    rw [parted_zero, List.map_nil, List.append_nil]
    exact ⟨rfl, rfl⟩
  | succ n ih =>
    have hlength := s.length_below_dropCurrent
    have hne : s.below ≠ [] := List.ne_nil_of_length_pos (Nat.zero_lt_of_lt hn)
    -- The current block is freed first, and then those that the rest of the stack drops.
    obtain ⟨hjournal, hhook⟩ := ih (s := s.dropCurrent) (h := s.clearedCurrent h) (by omega)
    rw [cleared, hjournal, hhook, parted, parted, retention_dropCurrent, active_dropCurrent hne,
      clearedCurrent]
    cases s.retention with
    | cache => exact ⟨by rw [journal_painted], hook_painted _ _ _ _ _⟩
    | release =>
      refine ⟨?_, hook_painted _ _ _ _ _⟩
      dsimp only [Host.withoutRegion]
      rw [journal_painted, List.append_assoc]
      rfl

/-- **The journal of an unwind**: the regions that are freed, and the event. -/
theorem journal_swept (s : Stack) (h : Host) (m : Marker) :
    (s.swept m h).journal
        = h.journal ++ (s.parted (s.surplus m.depth)).map .freed ++ s.told m.depth ∧
      (s.swept m h).hook = h.hook := by
  obtain ⟨hjournal, hhook⟩ := journal_cleared (h := h) (s.surplus_le m.depth)
  rw [swept, journal_painted, hook_painted, lessened, told]
  split
  · rw [hjournal, hhook]
    exact ⟨rfl, rfl⟩
  · rw [hjournal, hhook, List.append_nil]
    exact ⟨rfl, rfl⟩

end Stack

end StackArena
