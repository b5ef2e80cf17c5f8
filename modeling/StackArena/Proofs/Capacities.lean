/-
  Which capacities a block can have, and who keeps to them.

  A block is a region of the heap, and the heap rejects a layout whose size, rounded up to the
  alignment, is no size of an object.  At the largest natural alignment that leaves capacities up to
  `Block.largest`, fifteen bytes below `Word.maxSize`.  On a heap that serves every valid layout
  (`Platform.Liberal`) nothing but this limit can keep a block from being made.

  1. **Blocks** — up to the limit a liberal heap gives every block (`Block.make_of_le`), and beyond it
     no heap gives one (`Block.make_of_lt`).
  2. **Construction** — `validate` lets initial blocks up to `Word.maxSize` through, so the last
     fifteen of them are accepted and then stop the construction (`ofConfig_ends`).
  3. **Growth** — `validate` sets no bound on the smallest block, nor on the factor.  A request that
     could be a block is served exactly if it needs no new block, or if the policy wants one within
     the limit (`allocate_serves_iff`).

  The two cuts are closed theorems, each right after the equivalence that it marks the edge of.
-/
import StackArena.Proofs.Checks

namespace StackArena

/-- The largest capacity of a block. -/
def Block.largest : Nat := Nat.pow 2 63 - Alignment.maxNatural

/-- `Liberal p o`: the heap serves every layout that it does not reject. -/
def Platform.Liberal (p : Platform) (o : Outline) : Prop :=
  ∀ r l, Request.layout? r = some l → ∃ base, p.placeRegion o l = some base

namespace Block

/-! ## Blocks on a liberal heap -/

/-- The layout of a block is one that the heap accepts up to the limit. -/
theorem layout?_of_le {capacity : Nat} (hle : capacity ≤ largest) :
    (Request.mk capacity Alignment.maxNatural).layout? = some (layoutOf capacity) :=
  (layout?_eq capacity).trans (if_pos hle)

/-- A liberal heap has a place for every block up to the limit. -/
theorem placed_of_le {p : Platform} {o : Outline} (hp : p.Liberal o) {capacity : Nat}
    (hle : capacity ≤ largest) : ∃ base, p.placeRegion o (layoutOf capacity) = some base :=
  hp _ _ (layout?_of_le hle)

/-- Beyond the limit no block is made, on any heap. -/
theorem make_of_lt (p : Platform) {capacity : Nat} (serial : Nat) (h : Host)
    (hlt : largest < capacity) : make p capacity serial h = .error (.blockTooLarge capacity) h := by
  have hnone : (Request.mk capacity Alignment.maxNatural).layout? = none :=
    (layout?_eq capacity).trans (if_neg (Nat.not_le.2 hlt))
  rw [make, if_neg (Nat.ne_of_gt (Nat.zero_lt_of_lt hlt))]
  simp only [hnone]
  rfl

/-- Up to the limit a liberal heap gives the block, unless it is to be empty. -/
theorem make_of_le {p : Platform} {capacity : Nat} (serial : Nat) {h : Host}
    (hp : p.Liberal h.memory.outline) (hpos : capacity ≠ 0) (hle : capacity ≤ largest) :
    ∃ base, p.placeRegion h.memory.outline (layoutOf capacity) = some base ∧
      make p capacity serial h = .ok ⟨h.memory.nextRegion, base, capacity, 0, serial⟩
        (h.withRegion p base (layoutOf capacity)) := by
  rcases make_cases p capacity serial h with ⟨base, hplace, hmake, -⟩ | ⟨f, -, hdenied⟩
  · exact ⟨base, hplace, hmake⟩
  · cases hdenied with
    | empty hzero => exact absurd hzero hpos
    | tooLarge hlarge => exact absurd hle (Nat.not_le.2 hlarge)
    | exhausted hnone =>
      obtain ⟨base, hplace⟩ := placed_of_le hp hle
      nomatch hnone.symm.trans hplace

end Block

/-! ## A heap as wide as the address space -/

namespace Placement

/-- The base of a region on a heap that serves whatever still fits in the address space. -/
def wide (o : Outline) (l : Layout) : Option Nat :=
  let base := next o Alignment.maxNatural
  if base + l.size < Word.count then some base else none

/-- The platform of a session, on that heap. -/
def widePlatform (b : Build) : Platform :=
  { Session.platform b [] with placeRegion := wide }

theorem wide_spec {o : Outline} {l : Layout} {base : Nat} (h : wide o l = some base) :
    base = next o Alignment.maxNatural ∧ base + l.size < Word.count := by
  unfold wide at h
  dsimp only at h
  split at h
  · cases h
    exact ⟨rfl, ‹_›⟩
  · nomatch h

theorem widePlatform_sound (b : Build) {gap : Nat} (hgap : gap ≤ Placement.gap) :
    (widePlatform b).Sound gap := by
  constructor
  · intro o l base h
    rw [(wide_spec h).1]
    exact Nat.dvd_mul_left _ _
  · intro o l base h
    exact (wide_spec h).2
  · intro o l base h x hx _
    have hlimit := Outline.limit_le (List.mem_append_left o.chunks hx)
    have habove := le_next o (a := Alignment.maxNatural) (by decide)
    rw [← (wide_spec h).1] at habove
    omega

/-- As long as half of the address space is left, every valid layout is served. -/
theorem widePlatform_liberal (b : Build) {o : Outline} (ho : o.limit ≤ Nat.pow 2 62) :
    (widePlatform b).Liberal o := by
  intro r l hl
  have hsize : l.size ≤ Nat.pow 2 63 := by
    unfold Request.layout? at hl
    split at hl
    · rename_i hok
      cases hl
      exact (of_decide_eq_true (Bool.and_eq_true_iff.1 hok).2).trans (Nat.sub_le _ _)
    · nomatch hl
  have hnext : next o Alignment.maxNatural ≤ o.limit + gap + (Alignment.maxNatural - 1) :=
    Nat.div_mul_le_self _ _
  have hwords : Nat.pow 2 62 + gap + (Alignment.maxNatural - 1) + Nat.pow 2 63 < Word.count := by
    decide
  refine ⟨next o Alignment.maxNatural, ?_⟩
  show wide o l = _
  rw [wide]
  exact if_pos (by omega)

end Placement

/-! ## Construction -/

/-- The configurations that are accepted. -/
theorem Config.validate_eq_ok {c : Config} (h : c.validate = .ok ()) :
    0 < c.initialBlock ∧ c.initialBlock ≤ Word.maxSize ∧ 0 < c.minBlock ∧
      c.growthFactor.isPositive = true := by
  unfold validate at h
  split at h
  · nomatch h
  · split at h
    · nomatch h
    · split at h
      · nomatch h
      · split at h
        · nomatch h
        · rename_i hinitial hlarge hmin hfactor
          refine ⟨by omega, by omega, by omega, ?_⟩
          rwa [Bool.not_eq_true, Bool.not_eq_false'] at hfactor

namespace Stack

variable {p : Platform}

/-- A construction goes as that of its first block does, after the identity was taken. -/
theorem make_eq (p : Platform) (c : Config) (h : Host) :
    make p c h = (Block.make p c.initialBlock 0 >>= fun first => (pure {
      id := ⟨h.lastId + 1⟩
      current := first
      below := []
      cache := []
      growth := c.growth
      retention := c.retention
      fill := c.fill
      capacity := first.capacity
      outstanding := 0
      nextSerial := 1
      bottom := ⟨⟨h.lastId + 1⟩, 1, first.serial, 0, 0⟩ } : HostAction Stack)) (identified h) :=
  rfl

/-- A stack whose first block would be beyond the limit is not made. -/
theorem make_of_lt (p : Platform) {c : Config} (h : Host) (hlt : Block.largest < c.initialBlock) :
    make p c h = .error (.blockTooLarge c.initialBlock) (identified h) := by
  rw [make_eq, Action.bind_of_error (Block.make_of_lt p 0 (identified h) hlt)]

/-- An accepted configuration whose initial block is within the limit leads to a new stack. -/
theorem ofConfig_of_le {c : Config} {h : Host} (hp : p.Liberal h.memory.outline)
    (hvalid : c.validate = .ok ()) (hle : c.initialBlock ≤ Block.largest) : ∃ base,
      ofConfig p c h = .ok (.ok (newborn c h base))
        ((identified h).withRegion p base (Block.layoutOf c.initialBlock)) := by
  have hpos := Nat.ne_of_gt (Config.validate_eq_ok hvalid).1
  obtain ⟨base, -, hblock⟩ := Block.make_of_le (h := identified h) 0 hp hpos hle
  have hrun : make p c h = .ok (newborn c h base)
      ((identified h).withRegion p base (Block.layoutOf c.initialBlock)) := by
    rw [make_eq, Action.bind_of_ok hblock]
    rfl
  refine ⟨base, ?_⟩
  rw [ofConfig, hvalid]
  exact Action.bind_of_ok hrun

/-- One whose initial block is beyond it stops the construction. -/
theorem ofConfig_of_lt {c : Config} {h : Host} (hvalid : c.validate = .ok ())
    (hlt : Block.largest < c.initialBlock) :
    ofConfig p c h = .error (.blockTooLarge c.initialBlock) (identified h) := by
  rw [ofConfig, hvalid]
  exact Action.bind_of_error (make_of_lt p h hlt)

/-- **How construction ends**, on a heap that serves every valid layout:
    1. a configuration that is refused is answered with the cause, and nothing is done;
    2. one that is accepted and whose initial block is within the limit leads to a stack with one
       empty block of exactly that size, in a new region;
    3. one that is accepted with an initial block beyond the limit stops.

    So construction stops exactly if the initial block is one of the last fifteen sizes that
    `validate` lets through. -/
theorem ofConfig_ends (c : Config) {h : Host} (hp : p.Liberal h.memory.outline) :
    (∀ e, c.validate = .error e → ofConfig p c h = .ok (.error e) h) ∧
    (c.validate = .ok () → c.initialBlock ≤ Block.largest → ∃ s base,
      ofConfig p c h = .ok (.ok s) ((identified h).withRegion p base (Block.layoutOf c.initialBlock)) ∧
      s.active = [⟨h.memory.nextRegion, base, c.initialBlock, 0, 0⟩] ∧ s.cache = [] ∧
      s.capacity = c.initialBlock) ∧
    (c.validate = .ok () → Block.largest < c.initialBlock →
      ofConfig p c h = .error (.blockTooLarge c.initialBlock) (identified h)) ∧
    ((∃ f h', ofConfig p c h = .error f h') ↔
      c.validate = .ok () ∧ Block.largest < c.initialBlock ∧ c.initialBlock ≤ Word.maxSize) := by
  have hrefused : ∀ e, c.validate = .error e → ofConfig p c h = .ok (.error e) h := by
    intro e he
    rw [ofConfig, he]
    rfl
  refine ⟨hrefused, ?_, fun hvalid hlt => ofConfig_of_lt hvalid hlt, ?_, ?_⟩
  · intro hvalid hle
    obtain ⟨base, hrun⟩ := ofConfig_of_le hp hvalid hle
    exact ⟨_, base, hrun, rfl, rfl, rfl⟩
  · rintro ⟨f, h', hrun⟩
    cases hvalid : c.validate with
    | error e => cases (hrefused e hvalid).symm.trans hrun
    | ok u =>
      refine ⟨rfl, ?_, (Config.validate_eq_ok hvalid).2.1⟩
      by_contra hle
      obtain ⟨base, hdone⟩ := ofConfig_of_le hp hvalid (Nat.not_lt.1 hle)
      cases hdone.symm.trans hrun
  · rintro ⟨hvalid, hlt, -⟩
    exact ⟨_, _, ofConfig_of_lt hvalid hlt⟩

/-- At the start of a program on the wide heap, the largest block is made. -/
theorem ofConfig_ends_largest :
    (Placement.widePlatform .debug).Liberal Host.initial.memory.outline ∧
      (Config.sized .debug Block.largest).validate = .ok () ∧
      ∃ s base, ofConfig (Placement.widePlatform .debug) (Config.sized .debug Block.largest)
          Host.initial
        = .ok (.ok s) ((identified Host.initial).withRegion (Placement.widePlatform .debug) base
            (Block.layoutOf Block.largest)) ∧
        s.active = [⟨0, base, Block.largest, 0, 0⟩] := by
  have hp : (Placement.widePlatform .debug).Liberal Host.initial.memory.outline :=
    Placement.widePlatform_liberal .debug (by decide)
  have hvalid : (Config.sized .debug Block.largest).validate = .ok () := by decide
  obtain ⟨s, base, hrun, hactive, -⟩ :=
    (ofConfig_ends (Config.sized .debug Block.largest) hp).2.1 hvalid (Nat.le_refl _)
  exact ⟨hp, hvalid, s, base, hrun, hactive⟩

/-- **An accepted configuration can stop the construction**: the largest size of an object is let
    through, and no block can have it. -/
theorem ofConfig_stops_accepted :
    (Config.sized .debug Word.maxSize).validate = .ok () ∧
      ofConfig (Placement.widePlatform .debug) (Config.sized .debug Word.maxSize) Host.initial
        = .error (.blockTooLarge Word.maxSize) (identified Host.initial) := by
  have hlt : Block.largest < (Config.sized .debug Word.maxSize).initialBlock := by decide
  exact ⟨by decide, Action.bind_of_error (make_of_lt _ Host.initial hlt)⟩

end Stack

/-! ## Requests that could be a block -/

namespace Request

/-- Bytes that hold the request on every base, rounded up to a capacity. -/
def blockSize (r : Request) : Nat :=
  (r.size + (r.alignment - Alignment.maxNatural) + (Alignment.maxNatural - 1))
    / Alignment.maxNatural * Alignment.maxNatural

/-- `Expressible r`: the request could be a block, as far as sizes of objects go. -/
def Expressible (r : Request) : Prop := r.blockSize ≤ Word.maxSize

/-- A request that could be a block has a room, and one within the limit of blocks: a rounded size
    is a multiple, and the limit is the last one up to `Word.maxSize`. -/
theorem Expressible.room {r : Request} (hr : r.Expressible) :
    ∃ required, r.room? = some required ∧ required ≤ Block.largest := by
  have hmultiple : r.blockSize ≤ Word.maxSize := hr
  have hlimit : Block.largest = (Nat.pow 2 59 - 1) * Alignment.maxNatural := by decide
  have hnext : Word.maxSize < Nat.pow 2 59 * Alignment.maxNatural := by decide
  have hwords : Block.largest < Word.count := by decide
  have hle : r.size + (r.alignment - Alignment.maxNatural) ≤ Block.largest := by
    unfold blockSize at hmultiple
    generalize r.size + (r.alignment - Alignment.maxNatural) = required at hmultiple ⊢
    have hquotient := Nat.lt_of_mul_lt_mul_right (Nat.lt_of_le_of_lt hmultiple hnext)
    have hunit : Alignment.maxNatural = 16 := rfl
    rw [hunit] at hquotient hlimit
    omega
  refine ⟨_, ?_, hle⟩
  rw [room?, Word.add?, if_pos (Nat.lt_of_le_of_lt hle hwords)]

end Request

namespace Stack

variable {p : Platform} {gap : Nat} {s s' : Stack} {h h' : Host} {r : Request}

/-- `CanServe s r`: the current block has a span for the request, or the cache a block with the
    room for it, or the policy wants a new block within the limit. -/
def CanServe (s : Stack) (r : Request) : Prop :=
  (s.current.span? r).isSome = true ∨
  (∃ required, r.room? = some required ∧ (takeCached? required s.cache).isSome = true) ∨
  max s.growth.minBlock (s.growth.factor.scaleUp s.capacity) ≤ Block.largest

/-- What a stack has when a request comes: it is settled and sturdy, and where sums are checked, its
    books balance and there are serials left. -/
structure Equipped (p : Platform) (gap : Nat) (s : Stack) (h : Host) : Prop where
  settled : Settled gap s h
  sturdy : s.Sturdy
  checked : p.build = .debug → s.Balanced ∧ s.nextSerial + 1 < Word.count

/-- For a request that could be a block, the policy keeps to the limit or does not, whatever the
    request is. -/
theorem nextCapacity_le_iff {required : Nat} (hrequired : required ≤ Block.largest) :
    s.growth.nextCapacity s.capacity required ≤ Block.largest ↔
      max s.growth.minBlock (s.growth.factor.scaleUp s.capacity) ≤ Block.largest := by
  rw [Growth.nextCapacity_le_iff (by decide) (by decide)]
  omega

/-- **A growth fails only for the limit**, on a liberal heap. -/
theorem Equipped.grow_error {required : Nat} {f : Fault} (heq : Equipped p gap s h)
    (hp : p.Liberal h.memory.outline) (hgrow : Grow p required s h (.error f, s', h')) :
    takeCached? required s.cache = none ∧
      Block.largest < s.growth.nextCapacity s.capacity required ∧
      f = .blockTooLarge (s.growth.nextCapacity s.capacity required) := by
  cases hgrow with
  | serialsOut hserial =>
    obtain ⟨hdebug, hover⟩ := Build.add_eq_error hserial
    exact absurd (heq.checked hdebug).2 (Nat.not_lt.2 hover)
  | noBlock hserial hcache hmake =>
    refine ⟨hcache, ?_⟩
    rcases Nat.lt_or_ge Block.largest (s.growth.nextCapacity s.capacity required) with hlt | hle
    · cases (Block.make_of_lt p s.nextSerial (s.announced required h) hlt).symm.trans hmake
      exact ⟨hlt, rfl⟩
    · obtain ⟨base, -, hmade⟩ := Block.make_of_le (h := s.announced required h) s.nextSerial hp
        (heq.sturdy.nextCapacity_ne_zero required) hle
      nomatch hmade.symm.trans hmake

/-- **A request stops only for the limit**, and only where the stack cannot serve it. -/
theorem Equipped.allocate_error {f : Fault} {st : Stack × Host} (heq : Equipped p gap s h)
    (hsound : p.Sound gap) (hp : p.Liberal h.memory.outline)
    (hvalid : Alignment.isValid r.alignment = true) (hr : r.Expressible)
    (hrun : allocate p r (s, h) = .error f st) :
    ¬s.CanServe r ∧ ∃ required, r.room? = some required ∧
      f = .blockTooLarge (s.growth.nextCapacity s.capacity required) := by
  obtain ⟨required, hroom, hwithin⟩ := hr.room
  have hserves := allocate_ends (r := r) hsound heq.settled
  rw [Action.after_map, Action.after_of_error hrun] at hserves
  cases hserves with
  | misaligned _ hinvalid => nomatch hvalid.symm.trans hinvalid
  | bumped hbump =>
    exact absurd hbump (Bump.ne_error_of_checked heq.settled fun hdebug => (heq.checked hdebug).1)
  | oversized hspan hnone => nomatch hroom.symm.trans hnone
  | starved hspan hroom' hgrow =>
    cases hroom.symm.trans hroom'
    obtain ⟨hcache, hlt, rfl⟩ := heq.grow_error hp hgrow
    refine ⟨?_, required, hroom, rfl⟩
    rintro (hsome | ⟨required', hroom'', hsome⟩ | hle)
    · rw [hspan] at hsome
      nomatch hsome
    · cases hroom.symm.trans hroom''
      rw [hcache] at hsome
      nomatch hsome
    · exact Nat.not_le.2 hlt ((nextCapacity_le_iff hwithin).2 hle)
  | full _ hroom' hgrow hfull =>
    obtain ⟨n, hholds⟩ := hgrow.holds hsound heq.sturdy hvalid hroom'
    nomatch hfull.symm.trans hholds
  | grown _ _ hgrow hbump =>
    have hset := (hgrow.moves hsound heq.settled).settled
    exact absurd hbump (Bump.ne_error_of_checked hset fun hdebug =>
      hgrow.balanced (heq.checked hdebug).1)

/-- Beyond the limit a stack gets no block to put on top, if its cache has none. -/
theorem grow_of_lt (p : Platform) {required : Nat} (h : Host)
    (hcache : takeCached? required s.cache = none)
    (hlt : Block.largest < s.growth.nextCapacity s.capacity required) :
    ∃ f st, grow p required (s, h) = .error f st := by
  cases hserial : p.build.add s.nextSerial 1 with
  | error f => exact ⟨f, _, grow_of_full h hserial⟩
  | ok n =>
    have hemit : Host.emit (.growing s.id (s.growth.nextCapacity s.capacity required) s.capacity
        required) h = .ok () (s.announced required h) := rfl
    have hblock := Block.make_of_lt p s.nextSerial (s.announced required h) hlt
    have hobtain : Stack.obtain p required s.nextSerial ({ s with nextSerial := n }, h)
        = .error (.blockTooLarge (s.growth.nextCapacity s.capacity required))
          ({ s with nextSerial := n }, s.announced required h) := by
      rw [Stack.obtain, Action.self_bind]
      simp only [hcache]
      exact (Action.bind_of_ok (Action.onHost_of_ok hemit)).trans (Action.onHost_of_error hblock)
    have hrun : grow p required (s, h)
        = .error (.blockTooLarge (s.growth.nextCapacity s.capacity required))
          ({ s with nextSerial := n }, s.announced required h) := by
      rw [grow, Action.self_bind, hserial, Action.check_bind, Action.setSelf_bind]
      exact Action.bind_of_error hobtain
    exact ⟨_, _, hrun⟩

/-- A stack that cannot serve a request stops. -/
theorem allocate_of_not_canServe (hs : s.WellFormed) (hvalid : Alignment.isValid r.alignment = true)
    (hr : r.Expressible) (hnot : ¬s.CanServe r) : ∃ f st, allocate p r (s, h) = .error f st := by
  obtain ⟨required, hroom, hwithin⟩ := hr.room
  rw [CanServe, not_or, not_or] at hnot
  obtain ⟨hspan, hcached, hpolicy⟩ := hnot
  have hcache : takeCached? required s.cache = none :=
    Option.not_isSome_iff_eq_none.1 fun hsome => hcached ⟨required, hroom, hsome⟩
  have hlt := Nat.not_le.1 (mt (nextCapacity_le_iff hwithin).1 hpolicy)
  obtain ⟨f, st, hgrow⟩ := grow_of_lt p h hcache hlt
  have hbump := bump_ends (p := p) h hs (Or.inr hvalid)
  generalize hlast : Action.after (bump p r) (s, h) = last at hbump
  cases hbump with
  | overdrawn hsome => exact absurd (Option.isSome_iff_exists.2 ⟨_, hsome⟩) hspan
  | served hsome => exact absurd (Option.isSome_iff_exists.2 ⟨_, hsome⟩) hspan
  | declined =>
    refine ⟨f, st, ?_⟩
    rw [allocate, Build.require_of_holds _ (Or.inr hvalid), Action.check_bind,
      Action.bind_of_ok (Action.ok_of_after hlast)]
    simp only [hroom]
    exact Action.bind_of_error hgrow

end Stack

/-! ## Along a run -/

namespace World

open Stack

variable {p : Platform} {gap k : Nat} {t : Tenancy} {r : Request}

/-- At every point of a run a stack is equipped; where sums are checked, if it has not tried to grow
    too often. -/
theorem equipped_of_growths (hp : p.Sound gap) {cs : List Call}
    (hat : (run p initial cs).at? k = some t)
    (hfew : p.build = .debug → growths p k initial cs < Nat.pow 2 63) :
    Equipped p gap t.stack (run p initial cs).host := by
  have hw : Reachable p (run p initial cs) := ⟨cs, rfl⟩
  refine ⟨(hw.sound hp).settled k t hat, hw.sturdy hp hat, fun hdebug => ?_⟩
  have hprep := prepared_of_growths hp hdebug hat (hfew hdebug)
  exact ⟨hprep.balanced, hprep.serials⟩

/-- **When a request that could be a block is served.**  On a heap that serves every valid layout,
    in either build and at any point of a run (in a debug build, one in which the stack has tried to
    grow fewer than 2⁶³ times), a request whose size and slack, rounded up, are a size of an object
    is served exactly if the current block has a span for it, or the cache a block with the room for
    it, or the smallest block and the factor of the policy keep to the limit of blocks.  Otherwise
    it is stopped for the capacity that the policy wants, however small the request is. -/
theorem allocate_serves_iff (hp : p.Sound gap) {cs : List Call}
    (hat : (run p initial cs).at? k = some t)
    (hfew : p.build = .debug → growths p k initial cs < Nat.pow 2 63)
    (hheap : p.Liberal (run p initial cs).host.memory.outline)
    (hvalid : Alignment.isValid r.alignment = true) (hr : r.Expressible) :
    ((∃ address st, Stack.allocate p r (t.stack, (run p initial cs).host) = .ok address st) ↔
      t.stack.CanServe r) ∧
    ∀ f st, Stack.allocate p r (t.stack, (run p initial cs).host) = .error f st →
      ∃ required, r.room? = some required ∧ required ≤ Block.largest ∧
        f = .blockTooLarge (t.stack.growth.nextCapacity t.stack.capacity required) := by
  have heq := equipped_of_growths hp hat hfew
  refine ⟨⟨?_, ?_⟩, ?_⟩
  · rintro ⟨address, st, hrun⟩
    by_contra hnot
    obtain ⟨f, st', hstop⟩ := allocate_of_not_canServe (p := p) (h := (run p initial cs).host)
      heq.settled.wellFormed hvalid hr hnot
    nomatch hstop.symm.trans hrun
  · intro hcan
    cases hrun : Stack.allocate p r (t.stack, (run p initial cs).host) with
    | ok address st => exact ⟨address, st, rfl⟩
    | error f st => exact absurd hcan (heq.allocate_error hp hheap hvalid hr hrun).1
  · intro f st hrun
    obtain ⟨-, required, hroom, rfl⟩ := heq.allocate_error hp hheap hvalid hr hrun
    obtain ⟨required', hroom', hwithin⟩ := hr.room
    cases hroom.symm.trans hroom'
    exact ⟨required, hroom, hwithin, rfl⟩

/-- On the wide heap a stack with a block of 64 bytes serves a request for 100. -/
theorem allocate_serves_iff_grown :
    ∃ t, (run (Placement.widePlatform .debug) initial [.make (.sized .debug 64)]).at? 0 = some t ∧
      ∃ address st, Stack.allocate (Placement.widePlatform .debug) ⟨100, 1⟩
        (t.stack, (run (Placement.widePlatform .debug) initial [.make (.sized .debug 64)]).host)
          = .ok address st := by
  have hp : (Placement.widePlatform .debug).Sound 1 :=
    Placement.widePlatform_sound .debug (by decide)
  have hmade : ((run (Placement.widePlatform .debug) initial [.make (.sized .debug 64)]).at? 0).map
      (fun t => (t.stack.growth.minBlock, t.stack.growth.factor, t.stack.capacity))
      = some (1024, .one, 64) := by decide +kernel
  obtain ⟨t, hat, hpolicy⟩ := Option.map_eq_some_iff.1 hmade
  obtain ⟨hmin, hfactor, hcapacity⟩ : t.stack.growth.minBlock = 1024 ∧
      t.stack.growth.factor = .one ∧ t.stack.capacity = 64 := by
    simpa only [Prod.mk.injEq] using hpolicy
  have hcan : t.stack.CanServe ⟨100, 1⟩ := by
    refine Or.inr (Or.inr ?_)
    rw [hmin, hfactor, hcapacity]
    decide
  have hfew : growths (Placement.widePlatform .debug) 0 initial [.make (.sized .debug 64)] = 0 := by
    decide +kernel
  have hserves := allocate_serves_iff (r := ⟨100, 1⟩) hp hat (fun _ => by rw [hfew]; decide)
    (Placement.widePlatform_liberal .debug (by decide +kernel)) (by decide)
    (show Request.blockSize ⟨100, 1⟩ ≤ Word.maxSize by decide)
  exact ⟨t, hat, hserves.1.2 hcan⟩

/-- `Stops c r capacity`: the configuration is accepted, and a new stack made from it stops at a
    request because no block of the given capacity can be made. -/
def Stops (c : Config) (r : Request) (capacity : Nat) : Prop :=
  c.validate = .ok () ∧
    ∃ t, (run (Placement.widePlatform .debug) initial [.make c]).at? 0 = some t ∧
      ∃ st, Stack.allocate (Placement.widePlatform .debug) r
        (t.stack, (run (Placement.widePlatform .debug) initial [.make c]).host)
          = .error (.blockTooLarge capacity) st

/-- **A small request can stop**: one for 65 bytes, which could be a block of 80, is stopped for a
    capacity just below the end of the words, on account of the smallest block of a configuration
    or on account of its factor. -/
theorem allocate_stops_small : Request.blockSize ⟨65, 1⟩ = 80 ∧
    Stops { Config.sized .debug 64 with minBlock := Word.max } ⟨65, 1⟩ Growth.largest ∧
    Stops { Config.sized .debug 64 with growthFactor := ⟨0x43b0000000000000⟩ } ⟨65, 1⟩
      Growth.largest := by
  refine ⟨by decide, ⟨by decide, ?_⟩, ⟨by decide, ?_⟩⟩
  · exact ⟨_, rfl, _, rfl⟩
  · exact ⟨_, rfl, _, rfl⟩

end World

end StackArena
