/-
  Unwinds one after the other.

  It makes no difference to an unwind whether another one, to a later position, goes before it.  The
  blocks are then dropped in two batches instead of one, and the block between the batches has a
  smaller cursor when its turn comes; what is taken back is the same in the end.

    active blocks    [ front ][ later position ][ ... ][ earlier position ][ older ]
    in two goes       first    second ...
    in one            all of them

  1. **Stages** — where the two batches begin and end, for two positions of one stack that fit
     (`stages_of_fits`).  From there: the earlier position is accepted after the unwind to the later
     one, and the stack comes out the same but for leftover cursors (`Stages.stripped_eq`).
  2. **The journal** — which regions an unwind frees, in order, and what else it tells
     (`journal_swept`).
  3. **The host** — the same bytes are overwritten and the same regions freed
     (`Stages.swept_matches`), so that nothing but the journal can differ.
  4. **Nothing above** — an unwind to where the stack is already changes nothing
     (`unwound_eq_self`, `swept_of_idle`).
-/
import StackArena.Proofs.Leftovers
import StackArena.Proofs.Poison
import StackArena.Proofs.Cycles
import StackArena.Proofs.Ledger
import StackArena.Proofs.Positions

namespace StackArena

/-- A marker that is not behind another lies in a block below, or in the same one and not beyond. -/
theorem Marker.depth_of_compare? {m n : Marker}
    (horder : m.compare? n = some .lt ∨ m.compare? n = some .eq) :
    m.depth < n.depth ∨ (m.depth = n.depth ∧ m.offset ≤ n.offset) := by
  rcases horder with hlt | heq
  · obtain ⟨-, hdepth | ⟨hdepth, -, hoffset⟩⟩ := compare?_eq_lt_iff.1 hlt
    · exact Or.inl hdepth
    · exact Or.inr ⟨hdepth, Nat.le_of_lt hoffset⟩
  · obtain ⟨-, hdepth, -, hoffset⟩ := compare?_eq_eq_iff.1 heq
    exact Or.inr ⟨hdepth, Nat.le_of_eq hoffset⟩

namespace Stack

variable {p : Platform} {gap : Nat} {s : Stack} {h : Host} {m m₁ m₂ : Marker}

/-! ## Stages -/

/-- Of two blocks of a list, one that has no more below it is the other one, or lies below it. -/
theorem split_cases {newer₁ newer₂ older₁ older₂ : List Block} {blk₁ blk₂ : Block}
    (hsplit : newer₁ ++ blk₁ :: older₁ = newer₂ ++ blk₂ :: older₂)
    (hle : older₁.length ≤ older₂.length) :
    (newer₁ = newer₂ ∧ blk₁ = blk₂ ∧ older₁ = older₂) ∨
      ∃ between, newer₁ = newer₂ ++ blk₂ :: between ∧ older₂ = between ++ blk₁ :: older₁ := by
  rcases List.append_eq_append_iff.1 hsplit with ⟨more, hnewer, hrest⟩ | ⟨more, hnewer, hrest⟩
  · cases more with
    | nil =>
      obtain ⟨hblk, holder⟩ := List.cons.inj hrest
      exact Or.inl ⟨by rw [hnewer, List.append_nil], hblk, holder⟩
    | cons first more =>
      have hlength : older₁.length = (more ++ blk₂ :: older₂).length :=
        congrArg List.length (List.cons.inj hrest).2
      rw [List.length_append, List.length_cons] at hlength
      omega
  · cases more with
    | nil =>
      obtain ⟨hblk, holder⟩ := List.cons.inj hrest
      exact Or.inl ⟨by rw [hnewer, List.append_nil], hblk.symm, holder.symm⟩
    | cons first between =>
      obtain ⟨hblk, holder⟩ := List.cons.inj hrest
      exact Or.inr ⟨between, by rw [hnewer, hblk], holder⟩

/-- `Stages s m₁ m₂ front rest above blk cursor older`: on the way back to `m₁` the stack drops the
    blocks `above` and comes to `blk`.  Over `m₂` it drops `front` first, and then `rest`, which are
    the same blocks but for a cursor; the one of `blk` is `cursor` then. -/
structure Stages (s : Stack) (m₁ m₂ : Marker) (front rest above : List Block) (blk : Block)
    (cursor : Nat) (older : List Block) : Prop where
  split : s.active = above ++ blk :: older
  depth_eq : older.length + 1 = m₁.depth
  serial_eq : blk.serial = m₁.serial
  offset_le : m₁.offset ≤ blk.cursor
  front_eq : ∃ blk₂ older₂, s.active = front ++ blk₂ :: older₂ ∧ older₂.length + 1 = m₂.depth
  split_later : (s.unwound m₂).active = rest ++ { blk with cursor } :: older
  offset_le_later : m₁.offset ≤ cursor
  same : (front ++ rest).map Block.reset = above.map Block.reset

/-- Two positions that fit have their stages, if the first is not behind the second. -/
theorem stages_of_fits (hfits₁ : s.Fits m₁) (hfits₂ : s.Fits m₂)
    (hbefore : m₁.depth < m₂.depth ∨ (m₁.depth = m₂.depth ∧ m₁.offset ≤ m₂.offset)) :
    ∃ front rest above blk cursor older, Stages s m₁ m₂ front rest above blk cursor older := by
  obtain ⟨-, newer₁, blk₁, older₁, hsplit₁, hdepth₁, hserial₁, hoffset₁⟩ := hfits₁
  obtain ⟨-, newer₂, blk₂, older₂, hsplit₂, hdepth₂, -, hoffset₂⟩ := hfits₂
  obtain ⟨hcurrent, hbelow⟩ := unwound_of_split hsplit₂ hdepth₂
  have hafter : (s.unwound m₂).active = { blk₂ with cursor := m₂.offset } :: older₂ := by
    rw [active, hcurrent, hbelow, Nat.min_eq_left hoffset₂]
  rcases split_cases (hsplit₁.symm.trans hsplit₂) (by omega) with
    ⟨rfl, rfl, rfl⟩ | ⟨between, rfl, rfl⟩
  · -- Both positions lie in one block: all blocks go in the first go, and none in the second.
    have hoffset : m₁.offset ≤ m₂.offset := by omega
    refine ⟨newer₁, [], newer₁, blk₁, m₂.offset, older₁, hsplit₁, hdepth₁, hserial₁, hoffset₁,
      ⟨_, _, hsplit₂, hdepth₂⟩, hafter, hoffset, ?_⟩
    rw [List.append_nil]
  · -- The block of the later position is dropped in the second go, with its cursor moved back.
    refine ⟨newer₂, { blk₂ with cursor := m₂.offset } :: between, newer₂ ++ blk₂ :: between, blk₁,
      blk₁.cursor, older₁, hsplit₁, hdepth₁, hserial₁, hoffset₁, ⟨_, _, hsplit₂, hdepth₂⟩, hafter,
      hoffset₁, ?_⟩
    rw [List.map_append, List.map_append]
    rfl

/-- A stack that does not keep released blocks leaves its cache as it is when it drops some. -/
theorem cache_dropped_released {n : Nat} (hretention : s.retention = .release) :
    (dropped n s).cache = s.cache := by
  induction n generalizing s with
  | zero => rfl
  | succ n ih =>
    have hsame : s.dropCurrent.retention = .release := s.retention_dropCurrent.trans hretention
    rw [dropped, ih hsame]
    cases hbelow : s.below with
    | nil => rw [dropCurrent_of_nil hbelow]
    | cons next below => rw [dropCurrent_of_below hbelow, hretention]

/-- Two stacks that come from one by unwinds are the same but for leftover cursors if their active
    blocks and their books are, and their caches but for leftover cursors. -/
theorem stripped_eq_of_parts {t u : Stack}
    (ht : ∃ current below cache capacity outstanding,
      t = { s with current, below, cache, capacity, outstanding })
    (hu : ∃ current below cache capacity outstanding,
      u = { s with current, below, cache, capacity, outstanding })
    (hactive : t.active = u.active) (hcapacity : t.capacity = u.capacity)
    (hcount : t.outstanding = u.outstanding)
    (hcache : t.cache.map Block.reset = u.cache.map Block.reset) : t.stripped = u.stripped := by
  obtain ⟨current, below, cache, capacity, outstanding, rfl⟩ := ht
  obtain ⟨current', below', cache', capacity', outstanding', rfl⟩ := hu
  obtain ⟨hcurrent, hbelow⟩ := List.cons.inj hactive
  dsimp only at hcurrent hbelow hcapacity hcount hcache
  simp only [stripped, hcurrent, hbelow, hcapacity, hcount, hcache]

namespace Stages

variable {front rest above older : List Block} {blk : Block} {cursor : Nat}
  (hstages : Stages s m₁ m₂ front rest above blk cursor older)

include hstages

/-- After the unwind to the later position the earlier one still fits. -/
theorem fits (hstack : m₁.stack = s.id) : (s.unwound m₂).Fits m₁ :=
  ⟨hstack.trans (id_unwound m₂ s).symm, rest, _, older, hstages.split_later,
    hstages.depth_eq, hstages.serial_eq, hstages.offset_le_later⟩

/-- In both ways the same blocks are left, with the same cursors. -/
theorem active_eq : ((s.unwound m₂).unwound m₁).active = (s.unwound m₁).active := by
  obtain ⟨hcurrent, hbelow⟩ := unwound_of_split hstages.split hstages.depth_eq
  obtain ⟨hcurrent', hbelow'⟩ := unwound_of_split hstages.split_later hstages.depth_eq
  rw [active, active, hcurrent, hbelow, hcurrent', hbelow', Nat.min_eq_left hstages.offset_le,
    Nat.min_eq_left hstages.offset_le_later]

/-- The blocks that were dropped are in the cache in the same order, or were all freed. -/
theorem cache_eq : ((s.unwound m₂).unwound m₁).cache.map Block.reset
    = (s.unwound m₁).cache.map Block.reset := by
  obtain ⟨blk₂, older₂, hsplit₂, hdepth₂⟩ := hstages.front_eq
  have hsame := retention_unwound m₂ s
  cases hretention : s.retention with
  | release =>
    have hkeeps : ∀ (m : Marker) (t : Stack), t.retention = .release →
        (t.unwound m).cache = t.cache := fun _ _ => cache_dropped_released
    rw [hkeeps m₁ _ (hsame.trans hretention), hkeeps m₂ _ hretention, hkeeps m₁ _ hretention]
  | cache =>
    rw [cache_unwound (hsame.trans hretention) hstages.split_later hstages.depth_eq,
      cache_unwound hretention hsplit₂ hdepth₂,
      cache_unwound hretention hstages.split hstages.depth_eq, ← List.append_assoc,
      ← List.reverse_append]
    rw [List.map_append, List.map_reverse, hstages.same, ← List.map_reverse, ← List.map_append]

/-- **The stack comes out the same** but for leftover cursors, if the counts of the markers are in
    order, too. -/
theorem stripped_eq (hset : Settled gap s h) (hcount : m₁.outstanding ≤ m₂.outstanding) :
    ((s.unwound m₂).unwound m₁).stripped = (s.unwound m₁).stripped := by
  have hset₁ := (unwound_moves (m := m₁) hset).settled
  have hset₂ := (unwound_moves (m := m₂) hset).settled
  have hset₃ := (unwound_moves (m := m₁) hset₂).settled
  have htwice : ∃ current below cache capacity outstanding, (s.unwound m₂).unwound m₁
      = { s with current, below, cache, capacity, outstanding } := by
    obtain ⟨current, below, cache, capacity, outstanding, heq⟩ := unwound_eq m₂ s
    obtain ⟨current, below, cache, capacity, outstanding, heq'⟩ := unwound_eq m₁ (s.unwound m₂)
    exact ⟨current, below, cache, capacity, outstanding, by rw [heq', heq]⟩
  refine stripped_eq_of_parts htwice (unwound_eq m₁ s) hstages.active_eq ?_ ?_ hstages.cache_eq
  · rw [hset₃.wellFormed.capacity_eq, hset₁.wellFormed.capacity_eq, volume, volume,
      hstages.active_eq]
  · show min m₁.outstanding (min m₂.outstanding s.outstanding) = min m₁.outstanding s.outstanding
    omega

/-- The earlier position counts no more than the later one does. -/
theorem count_le (hknows₁ : s.Knows m₁) (hstack : m₁.stack = s.id) (hknows₂ : s.Knows m₂)
    (hok₂ : s.objection? m₂ = none) : m₁.outstanding ≤ m₂.outstanding := by
  have hleft : (s.unwound m₂).outstanding = m₂.outstanding :=
    Nat.min_eq_left (objection?_eq_none_iff.1 hok₂).2
  -- After the first unwind the books balance again, and the earlier position lies in what is left.
  have hbooks := unwound_balanced hknows₂ hok₂
  rw [Balanced, hleft, reserved, hstages.split_later, List.map_append, List.map_cons,
    List.sum_append, List.sum_cons] at hbooks
  have hcount := (hknows₁ hstack).2 above blk older hstages.split hstages.serial_eq
  have hcursor := hstages.offset_le_later
  dsimp only at hbooks
  omega

end Stages

/-! ## The journal -/

theorem regionsFreed_map (ns : List Nat) : regionsFreed (ns.map .freed) = ns := by
  rw [regionsFreed, List.filterMap_map]
  exact List.filterMap_some

/-- An unwind frees just the regions of the blocks that it drops, if the stack does not keep them. -/
theorem swept_frees (s : Stack) (h : Host) (m : Marker) :
    h.Records [] (s.parted (s.surplus m.depth)) (s.swept m h) := by
  obtain ⟨freed, hrecords, -⟩ := swept_records s h m
  obtain ⟨notes, hjournal, -, hfreed⟩ := hrecords.journal
  rw [(s.journal_swept h m).1, List.append_assoc] at hjournal
  have htold : regionsFreed (s.told m.depth) = [] := by
    unfold told
    split <;> rfl
  have hparted : s.parted (s.surplus m.depth) = freed := by
    rw [← hfreed, ← List.append_cancel_left hjournal, regionsFreed_append, regionsFreed_map, htold,
      List.append_nil]
  rw [hparted]
  exact hrecords

/-- The regions above a block are freed when it is unwound to, where released blocks are not kept. -/
theorem parted_of_split {newer older : List Block} {blk : Block} (hretention : s.retention = .release)
    (hsplit : s.active = newer ++ blk :: older) (hdepth : older.length + 1 = m.depth) :
    s.parted (s.surplus m.depth) = newer.map Block.region := by
  rw [parted, hretention, surplus_of_split hsplit hdepth, hsplit]
  exact congrArg (List.map Block.region) List.take_left

/-- In two goes the same regions are freed as in one, in the same order. -/
theorem Stages.parted_eq {front rest above older : List Block} {blk : Block} {cursor : Nat}
    (hstages : Stages s m₁ m₂ front rest above blk cursor older) :
    s.parted (s.surplus m₁.depth) = s.parted (s.surplus m₂.depth) ++
      (s.unwound m₂).parted ((s.unwound m₂).surplus m₁.depth) := by
  have hsame := retention_unwound m₂ s
  cases hretention : s.retention with
  | cache =>
    rw [parted_of_cache hretention, parted_of_cache hretention,
      parted_of_cache (hsame.trans hretention), List.nil_append]
  | release =>
    obtain ⟨blk₂, older₂, hsplit₂, hdepth₂⟩ := hstages.front_eq
    rw [parted_of_split hretention hstages.split hstages.depth_eq,
      parted_of_split hretention hsplit₂ hdepth₂,
      parted_of_split (hsame.trans hretention) hstages.split_later hstages.depth_eq,
      ← List.map_append]
    have hregions := congrArg (List.map Block.region) hstages.same
    rw [List.map_map, List.map_map] at hregions
    exact hregions.symm

end Stack

/-! ## The host -/

/-- `h.Matches h'`: the same regions with the same bytes, the same chunks, identities and hook.
    Such hosts differ in their journals at most. -/
structure Host.Matches (h h' : Host) : Prop where
  extent?_eq : ∀ n, h'.memory.extent? n = h.memory.extent? n
  byteAt_eq : ∀ p n o, h'.memory.byteAt p n o = h.memory.byteAt p n o
  chunks_eq : h'.memory.chunks = h.memory.chunks
  lastId_eq : h'.lastId = h.lastId
  hook_eq : h'.hook = h.hook

/-- The same byte written to the same places leaves the same bytes. -/
theorem Memory.Overwrites.byteAt_eq {p : Platform} {P Q : Nat → Nat → Prop} {byte : UInt8}
    {m m₁ m₂ : Memory} (hfirst : Overwrites p P byte m m₁) (hsecond : Overwrites p Q byte m m₂)
    (hsame : ∀ n o, P n o ↔ Q n o) (n o : Nat) : m₂.byteAt p n o = m₁.byteAt p n o := by
  by_cases hp : P n o
  · rw [hfirst.inside n o hp, hsecond.inside n o ((hsame n o).1 hp)]
  · rw [hfirst.outside n o hp, hsecond.outside n o (mt (hsame n o).2 hp)]

/-- The same regions freed leave the same regions. -/
theorem Host.Records.extent?_eq {h h₁ h₂ : Host} {freed : List Nat}
    (hfirst : h.Records [] freed h₁) (hsecond : h.Records [] freed h₂) (n : Nat) :
    h₂.memory.extent? n = h₁.memory.extent? n := by
  cases hx : h.memory.extent? n with
  | none =>
    have hnone : ∀ {h' : Host}, h.Records [] freed h' → h'.memory.extent? n = none := by
      intro h' hrecords
      by_contra hthere
      exact List.not_mem_nil ((hrecords.made_iff n).2 ⟨hx, hthere⟩)
    rw [hnone hfirst, hnone hsecond]
  | some x =>
    by_cases hn : n ∈ freed
    · rw [hfirst.gone n x hn hx, hsecond.gone n x hn hx]
    · rw [hfirst.kept n x hn hx, hsecond.kept n x hn hx]

namespace Stack

open Memory

variable {gap : Nat} {s : Stack} {h : Host} {m m₁ m₂ : Marker}

/-- **The host comes out the same** but for its journal. -/
theorem Stages.swept_matches {front rest above older : List Block} {blk : Block} {cursor : Nat}
    (hstages : Stages s m₁ m₂ front rest above blk cursor older) (hset : Settled gap s h)
    (hm : h.memory.Whole) :
    (s.swept m₁ h).Matches ((s.unwound m₂).swept m₁ (s.swept m₂ h)) := by
  have hmoves₁ := unwound_moves (m := m₁) hset
  have hmoves₂ := unwound_moves (m := m₂) hset
  have hmoves₃ := unwound_moves (m := m₁) hmoves₂.settled
  have hrecords := s.swept_frees h m₁
  have hrecords' := (s.swept_frees h m₂).trans ((s.unwound m₂).swept_frees (s.swept m₂ h) m₁)
  rw [← hstages.parted_eq] at hrecords'
  refine ⟨hrecords.extent?_eq hrecords', ?_, ?_, ?_, ?_⟩
  · intro p
    have hwrites := unwound_overwrites (p := p) hm hset m₁
    have hwrites₂ := unwound_overwrites (p := p) hm hset m₂
    apply hwrites.byteAt_eq (hwrites₂.trans (unwound_overwrites hwrites₂.whole hmoves₂.settled m₁))
    -- What is lost in two goes is lost in one, since the same is taken in the end.
    intro n o
    have htakes : ∀ n o, ((s.unwound m₂).unwound m₁).Takes n o ↔ (s.unwound m₁).Takes n o := by
      intro n o
      rw [Takes, Takes, hstages.active_eq]
    have hlost : s.Lost (s.unwound m₁) n o ↔ s.Lost ((s.unwound m₂).unwound m₁) n o := by
      rw [Lost, Lost, htakes]
    rw [hlost, lost_trans (fun n o => takes_of_unwound) (fun n o => takes_of_unwound),
      fill_unwound]
    tauto
  · rw [hrecords'.chunks_eq, hrecords.chunks_eq]
  · rw [hmoves₃.lastId_eq, hmoves₂.lastId_eq, hmoves₁.lastId_eq]
  · rw [((s.unwound m₂).journal_swept _ m₁).2, (s.journal_swept h m₂).2, (s.journal_swept h m₁).2]

/-! ## Nothing above -/

/-- Unwinding to where the stack is already leaves it as it is. -/
theorem unwound_eq_self (hdepth : m.depth = s.blockCount) (hcursor : s.current.cursor ≤ m.offset)
    (hcount : s.outstanding ≤ m.outstanding) : s.unwound m = s ∧ s.surplus m.depth = 0 := by
  have hnone : s.surplus m.depth = 0 := by
    unfold surplus keptDepth
    omega
  refine ⟨?_, hnone⟩
  rw [unwound, hnone]
  show ({ s with
    current := { s.current with cursor := min m.offset s.current.cursor }
    outstanding := min m.outstanding s.outstanding } : Stack) = s
  rw [Nat.min_eq_right hcursor, Nat.min_eq_right hcount]

/-- An unwind that leaves the stack as it is leaves the host as it is, journal included. -/
theorem swept_of_idle (hset : Settled gap s h) (hm : h.memory.Whole)
    (hidle : s.unwound m = s ∧ s.surplus m.depth = 0) :
    h.Matches (s.swept m h) ∧ (s.swept m h).journal = h.journal := by
  obtain ⟨hsame, hnone⟩ := hidle
  have hrecords := s.swept_frees h m
  have hjournal := s.journal_swept h m
  rw [hnone, parted_zero] at hrecords hjournal
  refine ⟨⟨(Host.Records.refl h).extent?_eq hrecords, ?_, hrecords.chunks_eq,
    (unwound_moves (m := m) hset).lastId_eq, hjournal.2⟩, ?_⟩
  · intro p
    have hwrites := unwound_overwrites (p := p) hm hset m
    rw [hsame] at hwrites
    apply (Overwrites.refl hm).byteAt_eq hwrites
    intro n o
    simp [Lost]
  · rw [hjournal.1, told, hnone]
    simp

/-- A second unwind to the same marker finds nothing to do. -/
theorem unwound_twice (hfits : s.Fits m) (hcount : m.outstanding ≤ s.outstanding) :
    (s.unwound m).objection? m = none ∧ (s.unwound m).unwound m = s.unwound m ∧
      (s.unwound m).surplus m.depth = 0 := by
  obtain ⟨front, rest, above, blk, cursor, older, hstages⟩ :=
    stages_of_fits hfits hfits (Or.inr ⟨rfl, Nat.le_refl _⟩)
  obtain ⟨hcurrent, hbelow⟩ := unwound_of_split hstages.split hstages.depth_eq
  have hleft : (s.unwound m).outstanding = m.outstanding := Nat.min_eq_left hcount
  refine ⟨objection?_eq_none_iff.2 ⟨hstages.fits hfits.1, ?_⟩, unwound_eq_self ?_ ?_ ?_⟩
  · rw [hleft]
  · rw [blockCount, hbelow, hstages.depth_eq]
  · rw [hcurrent]
    exact Nat.min_le_left _ _
  · rw [hleft]

/-- A stack accepts its own position, and unwinding to it does nothing. -/
theorem unwound_top (s : Stack) :
    s.objection? s.top = none ∧ s.unwound s.top = s ∧ s.surplus s.top.depth = 0 := by
  refine ⟨objection?_eq_none_iff.2 ⟨⟨rfl, [], s.current, s.below, rfl, rfl, rfl, ?_⟩, ?_⟩,
    unwound_eq_self rfl ?_ ?_⟩ <;> exact Nat.le_refl _

end Stack

namespace World

open Stack

variable {p : Platform} {gap i n : Nat} {w : World} {t : Tenancy}

/-! ## Markers while clients write -/

/-- Bytes are nothing to the accounts, either. -/
theorem Account.rewritten (ha : w.Account n) {h : Host} (hlast : h.lastId = w.host.lastId) :
    Account n { w with host := h } := by
  refine ⟨ha.balanced, ha.ordered, ha.serials, ha.guarded, ?_, ha.knows⟩
  intro m hm
  show m.stack.value ≤ h.lastId
  rw [hlast]
  exact ha.issued m hm

/-- In a debug build every world is accounted for that calls and writes of clients lead to. -/
theorem account_enact (hp : p.Sound gap) (hdebug : p.build = .debug) (ds : List Deed) :
    ∃ n, (enact p initial ds).Account n := by
  induction ds using List.reverseRecOn with
  | nil => exact ⟨0, .initial⟩
  | append_singleton ds d ih =>
    obtain ⟨n, haccount⟩ := ih
    have hsound := ((Tended.initial gap).enact hp ds).1.sound
    rw [enact_concat]
    cases d with
    | call c => exact ⟨n + 1, haccount.step hp hsound c (Or.inl hdebug)⟩
    | write slot k offset byte =>
      refine ⟨n, ?_⟩
      rw [deed]
      rcases (enact p initial ds).write_cases slot k offset byte with heq | ⟨u, g, -, -, -, heq⟩
      · rw [heq]
        exact haccount
      · rw [heq]
        exact haccount.rewritten (poke_extents _ g offset byte 0).2

/-! ## Composition -/

section

variable (hp : p.Sound gap) (hdebug : p.build = .debug) {ds : List Deed}
  (hw : w = enact p initial ds) (hat : w.at? i = some t)

include hp hdebug hw hat

/-- **Unwinds compose.**  In a debug build, in every state that calls and writes of clients lead to,
    let the checks accept two captured markers, the first not behind the second.
    1. Unwinding to the second and then to the first comes to the same as unwinding to the first
       alone: the same blocks, cursors and books, the same cached blocks but for the cursors that they
       were left with, and a host with the same regions, bytes and identities.  Both ways free the
       same regions in the same order, and the journals differ in the events about the unwinds only.
       What the cursors of cached blocks differ in never shows in what anyone does later.
    2. A second unwind to one marker changes nothing, and tells nothing.
    3. Nor does an unwind to the present position of the stack. -/
theorem unwinds_compose :
    (∀ m₁ ∈ w.markers, ∀ m₂ ∈ w.markers, t.stack.objection? m₁ = none →
      t.stack.objection? m₂ = none → m₁.compare? m₂ = some .lt ∨ m₁.compare? m₂ = some .eq →
      ∃ s₁ h₁ s₂ h₂ s₃ h₃, unwind p m₁ (t.stack, w.host) = .ok () (s₁, h₁) ∧
        unwind p m₂ (t.stack, w.host) = .ok () (s₂, h₂) ∧
        unwind p m₁ (s₂, h₂) = .ok () (s₃, h₃) ∧
        s₃.stripped = s₁.stripped ∧ h₁.Matches h₃ ∧
        (∃ first rest : List Nat,
          h₁.journal = w.host.journal ++ (first ++ rest).map .freed ++ t.stack.told m₁.depth ∧
          h₃.journal = w.host.journal ++ first.map .freed ++ t.stack.told m₂.depth ++
            rest.map .freed ++ s₂.told m₁.depth) ∧
        ∀ h markers moves, (⟨h, s₃, markers⟩ : Venture .stack).responses p moves
          = (⟨h, s₁, markers⟩ : Venture .stack).responses p moves) ∧
    (∀ m ∈ w.markers, t.stack.objection? m = none →
      ∃ s₁ h₁ h₂, unwind p m (t.stack, w.host) = .ok () (s₁, h₁) ∧
        unwind p m (s₁, h₁) = .ok () (s₁, h₂) ∧ h₁.Matches h₂ ∧ h₂.journal = h₁.journal) ∧
    ∃ h', unwind p t.stack.top (t.stack, w.host) = .ok () (t.stack, h') ∧ w.host.Matches h' ∧
      h'.journal = w.host.journal := by
  have htended : w.Tended gap := hw ▸ ((Tended.initial gap).enact hp ds).1
  obtain ⟨n, haccount⟩ : ∃ n, w.Account n := hw ▸ account_enact hp hdebug ds
  have hset := htended.sound.settled i t hat
  have hm := htended.whole
  have haccepted : ∀ {s : Stack} {h : Host} {m : Marker}, s.WellFormed → s.objection? m = none →
      unwind p m (s, h) = .ok () (s.unwound m, s.swept m h) := fun hs hok =>
    unwind_of_accepted _ hs (Or.inr hok)
  refine ⟨?_, ?_, ?_⟩
  · intro m₁ hm₁ m₂ hm₂ hok₁ hok₂ horder
    obtain ⟨hfits₁, hcount₁⟩ := objection?_eq_none_iff.1 hok₁
    obtain ⟨hfits₂, hcount₂⟩ := objection?_eq_none_iff.1 hok₂
    obtain ⟨front, rest, above, blk, cursor, older, hstages⟩ :=
      stages_of_fits hfits₁ hfits₂ (Marker.depth_of_compare? horder)
    have hle := hstages.count_le (haccount.knows m₁ hm₁ i t hat) hfits₁.1
      (haccount.knows m₂ hm₂ i t hat) hok₂
    have hset₂ := (unwound_moves (m := m₂) hset).settled
    have hok₃ : (t.stack.unwound m₂).objection? m₁ = none := by
      refine objection?_eq_none_iff.2 ⟨hstages.fits hfits₁.1, ?_⟩
      exact Nat.le_min.2 ⟨hle, hcount₁⟩
    have hsame := hstages.stripped_eq hset hle
    refine ⟨_, _, _, _, _, _, haccepted hset.wellFormed hok₁, haccepted hset.wellFormed hok₂,
      haccepted hset₂.wellFormed hok₃, hsame, hstages.swept_matches hset hm,
      ⟨t.stack.parted (t.stack.surplus m₂.depth), (t.stack.unwound m₂).parted
        ((t.stack.unwound m₂).surplus m₁.depth), ?_, ?_⟩, ?_⟩
    · rw [(journal_swept _ _ _).1, hstages.parted_eq]
    · rw [(journal_swept _ _ _).1, (journal_swept _ _ _).1]
    · intro h markers moves
      exact Venture.responses_of_stripped hsame h markers moves
  · intro m hmarker hok
    obtain ⟨hfits, hcount⟩ := objection?_eq_none_iff.1 hok
    obtain ⟨hagain, hidle⟩ := unwound_twice hfits hcount
    have hset₁ := (unwound_moves (m := m) hset).settled
    have hwrites := unwound_overwrites (p := p) hm hset m
    have hsecond := haccepted (h := t.stack.swept m w.host) hset₁.wellFormed hagain
    rw [hidle.1] at hsecond
    obtain ⟨hmatches, hjournal⟩ := swept_of_idle hset₁ hwrites.whole hidle
    exact ⟨_, _, _, haccepted hset.wellFormed hok, hsecond, hmatches, hjournal⟩
  · obtain ⟨hok, hidle⟩ := t.stack.unwound_top
    have hrun := haccepted (h := w.host) hset.wellFormed hok
    rw [hidle.1] at hrun
    obtain ⟨hmatches, hjournal⟩ := swept_of_idle hset hm hidle
    exact ⟨_, hrun, hmatches, hjournal⟩

end

/-- Three blocks on top of each other, with a byte written in between. -/
def threeHigh : List Deed :=
  [.call (.make (.sized .debug 64)), .call (.on 0 (.allocate .plain ⟨10, 1⟩)), .call (.on 0 .top),
    .call (.on 0 (.allocate .plain ⟨1000, 1⟩)), .call (.on 0 .top),
    .call (.on 0 (.allocate .plain ⟨20, 1⟩)), .write 0 0 3 7,
    .call (.on 0 (.allocate .plain ⟨2000, 1⟩))]

/-- The position in the first of the blocks that was captured. -/
def lowPosition : Marker := ⟨⟨1⟩, 1, 0, 10, 10⟩

/-- The position in the second one. -/
def highPosition : Marker := ⟨⟨1⟩, 2, 1, 1000, 1010⟩

/-- Two blocks are dropped, one by one or both at once.  The second block goes to the cache with the
    cursor 1000 or 1020, and that is all the difference. -/
theorem unwinds_compose_high :
    ∃ t s₁ h₁ s₂ h₂ s₃ h₃, (enact (Session.platform .debug []) initial threeHigh).at? 0 = some t ∧
      unwind (Session.platform .debug []) lowPosition
        (t.stack, (enact (Session.platform .debug []) initial threeHigh).host) = .ok () (s₁, h₁) ∧
      unwind (Session.platform .debug []) highPosition
        (t.stack, (enact (Session.platform .debug []) initial threeHigh).host) = .ok () (s₂, h₂) ∧
      unwind (Session.platform .debug []) lowPosition (s₂, h₂) = .ok () (s₃, h₃) ∧
      s₃.stripped = s₁.stripped ∧ h₁.Matches h₃ ∧ s₃.cache ≠ s₁.cache := by
  have hp : (Session.platform .debug []).Sound 1 :=
    Session.platform_sound .debug (by nofun) (by decide)
  have hmarkers : lowPosition ∈ (enact (Session.platform .debug []) initial threeHigh).markers ∧
      highPosition ∈ (enact (Session.platform .debug []) initial threeHigh).markers := by
    decide +kernel
  have hend : ((enact (Session.platform .debug []) initial threeHigh).at? 0).any (fun t =>
      (t.stack.objection? lowPosition).isNone && (t.stack.objection? highPosition).isNone &&
      ((t.stack.unwound highPosition).objection? lowPosition).isNone &&
      decide (((t.stack.unwound highPosition).unwound lowPosition).cache
        ≠ (t.stack.unwound lowPosition).cache)) = true := by
    decide +kernel
  obtain ⟨t, hat, hall⟩ := (Option.any_eq_true _ _).1 hend
  obtain ⟨hall, hcaches⟩ := Bool.and_eq_true_iff.1 hall
  obtain ⟨hall, hthird⟩ := Bool.and_eq_true_iff.1 hall
  obtain ⟨hlow, hhigh⟩ := Bool.and_eq_true_iff.1 hall
  obtain ⟨s₁, h₁, s₂, h₂, s₃, h₃, hrun₁, hrun₂, hrun₃, hsame, hmatches, -⟩ :=
    (unwinds_compose hp rfl rfl hat).1 lowPosition hmarkers.1 highPosition hmarkers.2
      (Option.isNone_iff_eq_none.1 hlow) (Option.isNone_iff_eq_none.1 hhigh) (Or.inl rfl)
  refine ⟨t, s₁, h₁, s₂, h₂, s₃, h₃, hat, hrun₁, hrun₂, hrun₃, hsame, hmatches, ?_⟩
  -- The runs of the three unwinds are known, so their ends are.
  have hset := (((Tended.initial 1).enact hp threeHigh).1.sound.settled 0 t hat)
  have hset₂ := (unwound_moves (m := highPosition) hset).settled
  cases hrun₁.symm.trans
    (unwind_of_accepted _ hset.wellFormed (Or.inr (Option.isNone_iff_eq_none.1 hlow)))
  cases hrun₂.symm.trans
    (unwind_of_accepted _ hset.wellFormed (Or.inr (Option.isNone_iff_eq_none.1 hhigh)))
  cases hrun₃.symm.trans
    (unwind_of_accepted _ hset₂.wellFormed (Or.inr (Option.isNone_iff_eq_none.1 hthird)))
  exact of_decide_eq_true hcaches

end World

end StackArena
