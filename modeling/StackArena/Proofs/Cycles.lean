/-
  Cycles of requests and an unwind.

  A cycle takes the position of a stack, has a series of requests served, and unwinds to the
  position.  With a stack that keeps its released blocks, one cycle is like the next.

  1. **Down** — the blocks that a series has put on top go to the front of the cache, the one that
     was put there first in front (`cache_unwound`).
  2. **Ready** — so the cache begins with the supply of the climb that was just made, and the stack
     is ready to make it again (`ready_of_run`).  A cycle leaves it ready in the same way
     (`Ready.cycle`).
  3. By induction on their number, all cycles after the first serve the same addresses, make no
     region, and leave what the first has left (`cycles_repeat`).
-/
import StackArena.Proofs.Climbing
import StackArena.Proofs.Acceptance

namespace StackArena

namespace Stack

/-! ## Cycles -/

/-- One cycle: a series of requests is served, and unwound again. -/
def cycle (p : Platform) (rs : List Request) : Action Stack (List Nat) := do
  let s ← Action.self
  let addresses ← allocateAll p rs
  unwind p s.top
  return addresses

/-- So many cycles, one after the other. -/
def cycles (p : Platform) (rs : List Request) : Nat → Action Stack (List (List Nat))
  | 0 => return []
  | k + 1 => do
    let addresses ← cycle p rs
    return addresses :: (← cycles p rs k)

variable {p : Platform} {gap : Nat} {s s' : Stack} {h h' : Host} {m : Marker}

/-! ## Down -/

/-- Dropped blocks go to the front of the cache, the oldest of them first. -/
theorem cache_dropped {n : Nat} (hretention : s.retention = .cache) (hn : n ≤ s.below.length) :
    (dropped n s).cache = (s.active.take n).reverse ++ s.cache := by
  induction n generalizing s with
  | zero => rfl
  | succ n ih =>
    obtain ⟨next, below, hbelow⟩ := List.exists_cons_of_length_pos (Nat.zero_lt_of_lt hn)
    have hlength := s.length_below_dropCurrent
    have hcache : s.dropCurrent.cache = s.current :: s.cache := by
      rw [dropCurrent_of_below hbelow, hretention]
    have hsame : s.dropCurrent.retention = .cache := by
      rw [dropCurrent_of_below hbelow, hretention]
    rw [dropped, ih hsame (by omega),
      active_dropCurrent (by rw [hbelow]; exact List.cons_ne_nil _ _), hcache, active,
      List.take_succ_cons, List.reverse_cons, List.append_assoc]
    rfl

/-- A stack that keeps its blocks frees no region when it drops them. -/
theorem extent?_cleared {n k : Nat} (hretention : s.retention = .cache) :
    (cleared n s h).memory.extent? k = h.memory.extent? k := by
  induction n generalizing s h with
  | zero => rfl
  | succ n ih =>
    have hsame : s.dropCurrent.retention = .cache := s.retention_dropCurrent.trans hretention
    rw [cleared, ih hsame, clearedCurrent, hretention]
    exact extent?_painted _ _ _ _ _ _

theorem extent?_swept {k : Nat} (hretention : s.retention = .cache) :
    (s.swept m h).memory.extent? k = h.memory.extent? k := by
  have hlessened : (s.lessened m.depth h).memory.extent? k = h.memory.extent? k := by
    rw [lessened]
    split
    · exact extent?_cleared hretention
    · exact extent?_cleared hretention
  rw [swept, extent?_painted, hlessened]

/-- What lies above a block goes to the front of the cache when the block is unwound to. -/
theorem cache_unwound {newer older : List Block} {blk : Block} (hretention : s.retention = .cache)
    (hsplit : s.active = newer ++ blk :: older) (hdepth : older.length + 1 = m.depth) :
    (s.unwound m).cache = newer.reverse ++ s.cache := by
  show (dropped (s.surplus m.depth) s).cache = _
  rw [cache_dropped hretention (s.surplus_le m.depth), surplus_of_split hsplit hdepth, hsplit,
    List.take_left]

/-! ## Counters that are words -/

/-- `s.InWords`: what a stack counts is no more than a word. -/
structure InWords (s : Stack) : Prop where
  outstanding_lt : s.outstanding < Word.count
  nextSerial_lt : s.nextSerial < Word.count

theorem newborn_inWords (c : Config) (h : Host) (base : Nat) : (newborn c h base).InWords := by
  constructor
  · show 0 < Word.count
    decide
  · show 1 < Word.count
    decide

theorem Serves.inWords {r : Request} {out : Except Fault (Option Nat)} (hs : s.InWords)
    (hserves : Serves p r s h (out, s', h')) : s'.InWords := by
  refine hserves.keeps (P := fun s' _ => s'.InWords) hs ?_ ?_
  · intro required out s₁ h₁ hgrow
    cases hgrow with
    | reused hserial => exact ⟨hs.outstanding_lt, Build.lt_of_add hserial⟩
    | made hserial => exact ⟨hs.outstanding_lt, Build.lt_of_add hserial⟩
    | serialsOut => exact hs
    | noBlock hserial => exact ⟨hs.outstanding_lt, Build.lt_of_add hserial⟩
  · intro s₁ h₁ out s₂ h₂ hs₁ hbump
    cases hbump with
    | declined => exact hs₁
    | overdrawn => exact ⟨hs₁.outstanding_lt, hs₁.nextSerial_lt⟩
    | served hspan hout => exact ⟨Build.lt_of_add hout, hs₁.nextSerial_lt⟩

theorem Ascent.inWords {rs : List Request} {addresses : List Nat} (hs : s.InWords)
    (hascent : Ascent p rs s h addresses s' h') : s'.InWords := by
  induction hascent with
  | done => exact hs
  | step hvalid hserves hrest ih => exact ih (hserves.inWords hs)

theorem InWords.unwound (hs : s.InWords) (m : Marker) : (s.unwound m).InWords := by
  constructor
  · exact Nat.lt_of_le_of_lt (Nat.min_le_right _ _) hs.outstanding_lt
  · rw [nextSerial_unwound]
    exact hs.nextSerial_lt

theorem Change.inWords {known : Marker → Prop} (hs : s.InWords)
    (hchange : Change p known s h s' h') : s'.InWords := by
  cases hchange with
  | still => exact hs
  | served hserves => exact hserves.inWords hs
  | unwound => exact hs.unwound _
  | shrunk => exact ⟨hs.outstanding_lt, hs.nextSerial_lt⟩

/-! ## Ready -/

/-- `s.Alike s'`: the same active blocks and the same capacity, and, but for their serials, the same
    cached blocks in the same order. -/
structure Alike (s s' : Stack) : Prop where
  active_eq : s.active = s'.active
  capacity_eq : s.capacity = s'.capacity
  cache_eq : s.cache.map Block.unnamed = s'.cache.map Block.unnamed

theorem Alike.refl (s : Stack) : s.Alike s := ⟨rfl, rfl, rfl⟩

theorem Alike.trans {s₁ s₂ s₃ : Stack} (hfirst : s₁.Alike s₂) (hsecond : s₂.Alike s₃) :
    s₁.Alike s₃ :=
  ⟨hfirst.active_eq.trans hsecond.active_eq, hfirst.capacity_eq.trans hsecond.capacity_eq,
    hfirst.cache_eq.trans hsecond.cache_eq⟩

/-- The bytes that a climb takes: all in the blocks on top, and in the block below them those that
    its cursor passes. -/
def climbed (blk : Block) (top : List Block) (cursor : Nat) : Nat :=
  (top.map Block.cursor).sum + (cursor - blk.cursor)

/-- `Ready p gap rs addresses supply top kept cursor s h`: a stack that keeps its released blocks,
    whose current block is that of a climb, and whose cache begins with the blocks that the climb
    puts on top. -/
structure Ready (p : Platform) (gap : Nat) (rs : List Request) (addresses : List Nat)
    (supply top kept : List Block) (cursor : Nat) (s : Stack) (h : Host) : Prop where
  climb : Climb s.current.unnamed supply rs addresses top cursor
  valid : ∀ r ∈ rs, p.build = .release ∨ Alignment.isValid r.alignment = true
  settled : Settled gap s h
  retention_eq : s.retention = .cache
  books : p.build = .release ∨ s.Balanced
  words : s.InWords
  cache_eq : s.cache.map Block.unnamed = top.reverse ++ kept

/-- **A cycle whose requests are served** comes back to where it started, and leaves the stack ready
    for the same climb. -/
theorem ready_of_run (hp : p.Sound gap) (hset : Settled gap s h)
    (hretention : s.retention = .cache) (hbooks : p.build = .release ∨ s.Balanced)
    (hwords : s.InWords) {rs : List Request} {addresses : List Nat}
    (hrun : allocateAll p rs (s, h) = .ok addresses (s', h')) {supply newer : List Block}
    {cursor : Nat}
    (hclimb : Climb s.current.unnamed supply rs addresses (newer.map Block.unnamed) cursor)
    (hactive : s'.active = newer ++ { s.current with cursor } :: s.below) :
    ∃ s₂ h₂, cycle p rs (s, h) = .ok addresses (s₂, h₂) ∧
      Ready p gap rs addresses supply (newer.map Block.unnamed) (s'.cache.map Block.unnamed) cursor
        s₂ h₂ ∧
      s₂.active = s.active ∧ s₂.capacity = s.capacity ∧ s₂.nextSerial = s'.nextSerial ∧
      (∀ n, h₂.memory.extent? n = h'.memory.extent? n) ∧
      s'.reserved = s.reserved + climbed s.current (newer.map Block.unnamed) cursor ∧
      s₂.outstanding = min s.outstanding ((s.outstanding +
        climbed s.current (newer.map Block.unnamed) cursor) % Word.count) := by
  have hcursor : s.current.cursor ≤ cursor := hclimb.cursor_le
  have hascent := ascent_of_run hp hset hrun
  have hmoves := hascent.moves hp hset
  have hsame : s'.retention = .cache := hascent.retention_eq.trans hretention
  have haccepted : p.build = .release ∨ s'.objection? s.top = none := by
    refine hbooks.imp_right fun hb => objection?_eq_none_iff.2 ⟨?_, ?_⟩
    · exact fits_of_above hmoves.id_eq hactive hcursor
    · exact count_le_of_above hb (hascent.balanced hp hset hb) hactive hcursor
  have hunwind := unwind_of_accepted h' hmoves.settled.wellFormed haccepted
  obtain ⟨hcurrent, hbelow⟩ := unwound_of_above hactive hcursor
  have hback : (s'.unwound s.top).active = s.active := by
    rw [active, active, hcurrent, hbelow]
  have hset₂ := (unwound_moves (m := s.top) hmoves.settled).settled
  obtain ⟨current, below, cache, capacity, outstanding, heq⟩ := unwound_eq s.top s'
  have hreserved : s'.reserved
      = s.reserved + climbed s.current (newer.map Block.unnamed) cursor := by
    rw [reserved_of_above hactive hcursor, climbed, List.map_map]
    rfl
  refine ⟨s'.unwound s.top, s'.swept s.top h', ?_, ⟨?_, hascent.valid, hset₂, ?_, ?_, ?_, ?_⟩,
    hback, ?_, ?_, fun n => extent?_swept hsame, hreserved, ?_⟩
  · rw [cycle, Action.self_bind, Action.bind_of_ok hrun, Action.bind_of_ok hunwind]
    rfl
  · rwa [hcurrent]
  · rw [heq]
    exact hsame
  · refine hbooks.imp_right fun hb => ?_
    have hb' := hascent.balanced hp hset hb
    unfold Balanced at hb hb' ⊢
    show min s.outstanding s'.outstanding = ((s'.unwound s.top).active.map Block.cursor).sum
    rw [hback]
    change _ = s.reserved
    omega
  · exact (hascent.inWords hwords).unwound s.top
  · rw [cache_unwound hsame hactive rfl, List.map_append, List.map_reverse]
  · rw [hset₂.wellFormed.capacity_eq, hset.wellFormed.capacity_eq, volume, volume, hback]
  · rw [heq]
  · obtain ⟨n, hn, hout⟩ := hascent.taken hwords.outstanding_lt
    show min s.outstanding s'.outstanding = _
    rw [hout, Nat.add_left_cancel (hn.symm.trans hreserved)]

section

variable {rs : List Request} {addresses : List Nat} {supply top kept : List Block} {cursor : Nat}
  (hp : p.Sound gap) (hready : Ready p gap rs addresses supply top kept cursor s h)

include hp hready

omit hp in
/-- The cache of a stack that is ready begins with the supply of the climb. -/
theorem Ready.cache_split : ∃ ready rest, s.cache = ready ++ rest ∧
    ready.map (Block.recycle 0) = supply ∧ rest.map Block.unnamed = kept := by
  obtain ⟨ready, rest, hwhole, hfront, hrest⟩ := List.map_eq_append_iff.1 hready.cache_eq
  have hback := congrArg List.reverse hready.climb.top_eq
  rw [List.reverse_reverse, ← List.map_reverse, ← hfront, List.map_map] at hback
  exact ⟨ready, rest, hwhole, hback, hrest⟩

/-- **A stack that is ready makes a cycle**, and is ready again. -/
theorem Ready.cycle (hserials : p.build = .release ∨ s.nextSerial + supply.length < Word.count) :
    ∃ s' h', Stack.cycle p rs (s, h) = .ok addresses (s', h') ∧
      Ready p gap rs addresses supply top kept cursor s' h' ∧ s'.Alike s ∧
      (p.build = .release ∨ s'.nextSerial = s.nextSerial + supply.length) ∧
      (∀ n, h'.memory.extent? n = h.memory.extent? n) ∧
      (s.outstanding + climbed s.current top cursor < Word.count →
        s'.outstanding = s.outstanding) := by
  obtain ⟨ready, rest, hwhole, hfront, rfl⟩ := hready.cache_split
  obtain ⟨s₁, h₁, newer, hrun, hactive, rfl, rfl, hnext, hextent⟩ := hready.climb.again hp
    hready.settled hready.valid hready.books rfl hwhole hfront hserials
  obtain ⟨s', h', hcycle, hagain, hback, hcapacity, hserial, hextent', -, hout⟩ := ready_of_run hp
    hready.settled hready.retention_eq hready.books hready.words hrun hready.climb hactive
  refine ⟨s', h', hcycle, hagain, ⟨hback, hcapacity, ?_⟩, ?_, ?_, ?_⟩
  · rw [hagain.cache_eq, hready.cache_eq]
  · rwa [hserial]
  · intro n
    rw [hextent', hextent]
  · intro hlt
    rw [hout, Nat.mod_eq_of_lt hlt]
    omega

/-- **So it does for any number of cycles.** -/
theorem Ready.cycles (k : Nat)
    (hserials : p.build = .release ∨ s.nextSerial + k * supply.length < Word.count) :
    ∃ s' h', Stack.cycles p rs k (s, h) = .ok (List.replicate k addresses) (s', h') ∧
      s'.Alike s ∧ (∀ n, h'.memory.extent? n = h.memory.extent? n) ∧
      (s.outstanding + climbed s.current top cursor < Word.count →
        s'.outstanding = s.outstanding) := by
  induction k generalizing s h with
  | zero => exact ⟨s, h, rfl, Alike.refl s, fun n => rfl, fun _ => rfl⟩
  | succ k ih =>
    rw [Nat.succ_mul] at hserials
    obtain ⟨s₁, h₁, hcycle, hready₁, halike, hnext, hextent, hcount⟩ :=
      hready.cycle hp (hserials.imp_right fun _ => by omega)
    have hserials₁ : p.build = .release ∨ s₁.nextSerial + k * supply.length < Word.count := by
      rcases hserials with hrelease | hlt
      · exact Or.inl hrelease
      · exact hnext.imp_right fun hnext => by omega
    obtain ⟨s', h', hrest, halike', hextent', hcount'⟩ := ih hready₁ hserials₁
    refine ⟨s', h', ?_, halike'.trans halike, ?_, ?_⟩
    · rw [Stack.cycles, Action.bind_of_ok hcycle, Action.bind_of_ok hrest]
      rfl
    · intro n
      rw [hextent', hextent]
    · intro hlt
      have hcurrent : s₁.current = s.current := (List.cons.inj halike.active_eq).1
      rw [hcurrent, hcount hlt] at hcount'
      exact hcount' hlt

/-- In a debug build there are cycles as long as there are serials. -/
theorem Ready.cycles_stop (hdebug : p.build = .debug) (k : Nat)
    (hfull : Word.count ≤ s.nextSerial + k * supply.length) :
    ∃ st, Stack.cycles p rs k (s, h) = .error (.overflow .add) st := by
  induction k generalizing s h with
  | zero =>
    have hlt := hready.words.nextSerial_lt
    omega
  | succ k ih =>
    rw [Nat.succ_mul] at hfull
    rcases Nat.lt_or_ge (s.nextSerial + supply.length) Word.count with hmore | hlast
    · obtain ⟨s₁, h₁, hcycle, hready₁, -, hnext, -⟩ := hready.cycle hp (Or.inr hmore)
      have hnext₁ := hnext.resolve_left (Build.eq_debug_iff.1 hdebug)
      obtain ⟨st, hstop⟩ := ih hready₁ (by omega)
      refine ⟨st, ?_⟩
      rw [Stack.cycles, Action.bind_of_ok hcycle]
      exact Action.bind_of_error hstop
    · obtain ⟨ready, rest, hwhole, hfront, -⟩ := hready.cache_split
      obtain ⟨st, hstop⟩ := hready.climb.stops hp hready.settled hready.valid hready.books rfl
        hwhole hfront hdebug hready.words.nextSerial_lt hlast
      have hcycle : Stack.cycle p rs (s, h) = .error (.overflow .add) st := by
        rw [Stack.cycle, Action.self_bind]
        exact Action.bind_of_error hstop
      refine ⟨st, ?_⟩
      rw [Stack.cycles]
      exact Action.bind_of_error hcycle

end

/-- A count that was taken back after it had wrapped around does not wrap around again: books that
    balance never do, and others not if what was added is no more than half of all words. -/
theorem count_lt_of_right {n : Nat} (hset' : Settled gap s' h') (hwords : s.InWords)
    (hreserved : s'.reserved = s.reserved + n)
    (hright : s.Balanced ∨ 2 * s'.capacity ≤ Word.count) :
    min s.outstanding ((s.outstanding + n) % Word.count) + n < Word.count := by
  have hle := hset'.wellFormed.reserved_le_volume
  have hlt := hset'.lodged.volume_lt hset'.spaced
  have hword := hwords.outstanding_lt
  rcases Nat.lt_or_ge (s.outstanding + n) Word.count with hfits | hwraps
  · rw [Nat.mod_eq_of_lt hfits]
    omega
  · rcases hright with hb | hhalf
    · unfold Balanced at hb
      omega
    · rw [hset'.wellFormed.capacity_eq] at hhalf
      have hwrapped : (s.outstanding + n) % Word.count = s.outstanding + n - Word.count := by
        rw [Nat.mod_eq_sub_mod hwraps, Nat.mod_eq_of_lt (by omega)]
      omega

end Stack

namespace World

open Stack

variable {p : Platform} {gap i : Nat} {w : World} {t : Tenancy}

theorem Reachable.inWords (hp : p.Sound gap) (hw : Reachable p w) (hat : w.at? i = some t) :
    t.stack.InWords :=
  hw.induct (P := fun t => t.stack.InWords) hp (fun c h base _ _ => newborn_inWords c h base)
    (fun w i _ op hsound hat hs =>
      (Tenancy.act_change hp (hsound.settled i _ hat) w.markers op).inWords hs) i t hat

/-! ## Cycles in every state -/

/-- **Cycles repeat.**  Take any stack that a run has led to and that keeps its released blocks, and
    any requests that it serves.  A cycle of them comes back to where it started.  So do all the
    cycles that come after it: they serve the same addresses, make no region and free none, and
    leave the active blocks, the capacity and the cached blocks as the first cycle has left them;
    or a debug build comes to the end of the serials.  The outstanding bytes are what they were
    after the first cycle, too; only books of a release build that an unwind has put out of step
    before could come to wrap around, on a stack that owns more than half of the address space. -/
theorem cycles_repeat (hp : p.Sound gap) (hw : Reachable p w) (hat : w.at? i = some t)
    (hretention : t.stack.retention = .cache) {rs : List Request} {addresses : List Nat}
    {s₁ : Stack} {h₁ : Host}
    (hrun : allocateAll p rs (t.stack, w.host) = .ok addresses (s₁, h₁)) :
    ∃ s₂ h₂, Stack.cycle p rs (t.stack, w.host) = .ok addresses (s₂, h₂) ∧
      s₂.active = t.stack.active ∧ s₂.capacity = t.stack.capacity ∧
      ∀ k, (∃ s' h', Stack.cycles p rs (k + 1) (t.stack, w.host)
            = .ok (List.replicate (k + 1) addresses) (s', h') ∧
          s'.Alike s₂ ∧ (∀ n, h'.memory.extent? n = h₂.memory.extent? n) ∧
          (p.build = .debug ∨ t.stack.Balanced ∨ 2 * s₁.capacity ≤ Word.count →
            s'.outstanding = s₂.outstanding)) ∨
        (p.build = .debug ∧ Word.count ≤
            t.stack.nextSerial + (k + 1) * (s₁.blockCount - t.stack.blockCount) ∧
          ∃ st, Stack.cycles p rs (k + 1) (t.stack, w.host) = .error (.overflow .add) st) := by
  have hset := (hw.sound hp).settled i t hat
  have hbooks := hw.books hp hat
  have hwords := hw.inWords hp hat
  have hascent := ascent_of_run hp hset hrun
  obtain ⟨supply, newer, cursor, hclimb, hactive, hnext⟩ := hascent.climb
  obtain ⟨s₂, h₂, hcycle, hready, hback, hcapacity, hserial, -, hreserved, hout⟩ :=
    ready_of_run hp hset hretention hbooks hwords hrun hclimb hactive
  have htop : newer.length = supply.length := by
    rw [← hclimb.length_top, List.length_map]
  have hblocks : s₁.blockCount - t.stack.blockCount = supply.length := by
    rw [blockCount_of_above hactive, htop]
    omega
  refine ⟨s₂, h₂, hcycle, hback, hcapacity, ?_⟩
  intro k
  rw [hblocks, Nat.succ_mul k]
  by_cases hroom : p.build = .release ∨
      t.stack.nextSerial + (k * supply.length + supply.length) < Word.count
  · refine Or.inl ?_
    have hroom₂ : p.build = .release ∨ s₂.nextSerial + k * supply.length < Word.count := by
      rcases hroom with hrelease | hlt
      · exact Or.inl hrelease
      · exact hnext.imp_right fun hnext => by omega
    obtain ⟨s', h', hrest, halike, hextent, hcount⟩ := hready.cycles hp k hroom₂
    refine ⟨s', h', ?_, halike, hextent, ?_⟩
    · rw [Stack.cycles, Action.bind_of_ok hcycle, Action.bind_of_ok hrest]
      rfl
    · intro hright
      refine hcount ?_
      have hright' : t.stack.Balanced ∨ 2 * s₁.capacity ≤ Word.count := by
        rcases hright with hdebug | hright
        · exact Or.inl (hbooks.resolve_left (Build.eq_debug_iff.1 hdebug))
        · exact hright
      have hcurrent : s₂.current = t.stack.current := (List.cons.inj hback).1
      rw [hcurrent, hout]
      exact count_lt_of_right (hascent.moves hp hset).settled hwords hreserved hright'
  · refine Or.inr ?_
    obtain ⟨hbuild, hfull⟩ := not_or.1 hroom
    have hdebug := Build.eq_debug_iff.2 hbuild
    have hnext₁ := hnext.resolve_left hbuild
    obtain ⟨st, hstop⟩ := hready.cycles_stop hp hdebug k (by omega)
    refine ⟨hdebug, Nat.not_lt.1 hfull, st, ?_⟩
    rw [Stack.cycles, Action.bind_of_ok hcycle]
    exact Action.bind_of_error hstop

/-- A stack with a block in its cache. -/
def oneReleased : World := run (Session.platform .debug []) initial
  [.make (.sized .debug 64), .on 0 (.allocate .plain ⟨100, 1⟩), .on 0 .unwindAll]

/-- Of two requests the first is served by the block in the cache, the second by a new one; after
    that both blocks are in the cache, and three cycles serve the same addresses. -/
theorem cycles_repeat_thrice :
    ∃ t s₂ h₂ s' h', oneReleased.at? 0 = some t ∧ t.stack.cache.map Block.region = [1] ∧
      Stack.cycle (Session.platform .debug []) [⟨500, 8⟩, ⟨2000, 32⟩] (t.stack, oneReleased.host)
        = .ok [131072, 196608] (s₂, h₂) ∧
      Stack.cycles (Session.platform .debug []) [⟨500, 8⟩, ⟨2000, 32⟩] 3
        (t.stack, oneReleased.host) = .ok (List.replicate 3 [131072, 196608]) (s', h') ∧
      s'.Alike s₂ ∧ s'.outstanding = s₂.outstanding := by
  have hp : (Session.platform .debug []).Sound 1 :=
    Session.platform_sound .debug (by nofun) (by decide)
  have hend : (oneReleased.at? 0).any (fun t =>
      let done := Action.after (allocateAll (Session.platform .debug []) [⟨500, 8⟩, ⟨2000, 32⟩])
        (t.stack, oneReleased.host)
      decide (t.stack.retention = .cache ∧ t.stack.cache.map Block.region = [1] ∧
        done.1.toOption = some [131072, 196608] ∧ t.stack.nextSerial = 2 ∧
        done.2.1.blockCount - t.stack.blockCount = 2)) = true := by decide +kernel
  obtain ⟨t, hat, hall⟩ := (Option.any_eq_true _ _).1 hend
  obtain ⟨hretention, hregions, hserved, hserial, hblocks⟩ := of_decide_eq_true hall
  generalize hafter : Action.after (allocateAll (Session.platform .debug [])
    [⟨500, 8⟩, ⟨2000, 32⟩]) (t.stack, oneReleased.host) = done at hserved hblocks
  obtain ⟨out, s₁, h₁⟩ := done
  have hrun : allocateAll (Session.platform .debug []) [⟨500, 8⟩, ⟨2000, 32⟩]
      (t.stack, oneReleased.host) = .ok [131072, 196608] (s₁, h₁) := by
    cases out with
    | ok addresses =>
      cases hserved
      exact Action.ok_of_after hafter
    | error f => cases hserved
  obtain ⟨s₂, h₂, hcycle, -, -, hrepeat⟩ := cycles_repeat hp ⟨_, rfl⟩ hat hretention hrun
  rcases hrepeat 2 with ⟨s', h', hcycles, halike, -, hcount⟩ | ⟨-, hfull, -⟩
  · exact ⟨t, s₂, h₂, s', h', hat, hregions, hcycle, hcycles, halike, hcount (Or.inl rfl)⟩
  · rw [hserial] at hfull
    change Word.count ≤ 2 + 3 * (s₁.blockCount - t.stack.blockCount) at hfull
    rw [hblocks] at hfull
    exact absurd hfull (by decide)

end World

end StackArena
