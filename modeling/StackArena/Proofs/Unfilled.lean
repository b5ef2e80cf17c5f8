/-
  Stacks that overwrite, beside stacks that do not.

  A stack that overwrites does so when it hands bytes out, when it releases a block and when it takes
  its current block back.  Each time the range is checked, and an overwritten range outside its block
  would stop the stack.  It never is:

    0 ............ offset ........ cursor ........ capacity
                   | handed out or taken back |

  1. **Ranges** — the cursor of every block stays inside it, in either build and after every unwind
     (`Block.Fillable`), so what is taken may be overwritten.
  2. **Stacks** — a stack is in lockstep with the same stack that does not overwrite
     (`Stack.unfilled`), in every operation; what it overwrites shows in no host that is veiled.
  3. **Providers** — so are trees of stacks, heaps and budgets (`Tree.provider_locksteps`), in all
     forms of asking and giving back, and at their end.
  4. **Recipes** — what a recipe makes is what the recipe makes that says nothing of overwriting
     (`Recipe.make_lockstep`).
-/
import StackArena.Proofs.Lockstep
import StackArena.Proofs.Shape
import StackArena.Proofs.Twins

namespace StackArena

open StackArena.Action Host

/-- Two checks in a row that let a value through have both let one through. -/
theorem Except.bind_eq_ok {ε α β : Type} {x : Except ε α} {f : α → Except ε β} {b : β}
    (hx : (x >>= f) = .ok b) : ∃ a, x = .ok a ∧ f a = .ok b := by
  cases x with
  | ok a => exact ⟨a, rfl, hx⟩
  | error e => cases hx

/-! ## Ranges -/

namespace Block

/-- `blk.Fillable`: the cursor is inside the block, and so is all that is taken. -/
structure Fillable (blk : Block) : Prop where
  cursor_le : blk.cursor ≤ blk.capacity
  bounded : blk.capacity < Word.count

namespace Fillable

variable {b : Build} {blk blk' : Block} {r : Request} {n : Nat} {a : Allocation}

/-- What a request would take is free. -/
theorem of_spanFor (hblk : blk.Fillable) (hfor : blk.spanFor b r = .ok (some n)) :
    r.size ≤ n ∧ blk.cursor + n ≤ blk.capacity := by
  have hcursor := hblk.cursor_le
  have hleft : blk.remaining b = .ok (blk.capacity - blk.cursor) := b.sub_of_le hcursor
  obtain ⟨-, -, hfor⟩ := Except.bind_eq_ok hfor
  obtain ⟨address, -, hfor⟩ := Except.bind_eq_ok hfor
  obtain ⟨padding, -, hfor⟩ := Except.bind_eq_ok hfor
  rw [hleft, Word.add?] at hfor
  split at hfor
  · cases hfor
  · rename_i reserved hword
    split at hword
    · cases hword
      rw [Except.ok_bind] at hfor
      by_cases hfits : padding + r.size ≤ blk.capacity - blk.cursor
      · rw [if_pos hfits] at hfor
        cases hfor
        omega
      · rw [if_neg hfits] at hfor
        cases hfor
    · cases hword

/-- A block that has served a request has its cursor inside, and the bytes of the request below
    it. -/
theorem of_tryAllocate (hblk : blk.Fillable) (htry : blk.tryAllocate b r = .ok (some (a, blk'))) :
    blk'.Fillable ∧ r.size ≤ blk'.cursor := by
  obtain ⟨taken, hfor, hrest⟩ := Except.bind_eq_ok htry
  cases taken with
  | none => cases hrest
  | some n =>
    obtain ⟨hsize, hfits⟩ := hblk.of_spanFor hfor
    have hbounded := hblk.bounded
    have hadd : b.add blk.cursor n = .ok (blk.cursor + n) := b.add_of_lt (by omega)
    obtain ⟨cursor, hcursor, hrest⟩ := Except.bind_eq_ok hrest
    cases hadd.symm.trans hcursor
    obtain ⟨start, -, hrest⟩ := Except.bind_eq_ok hrest
    obtain ⟨address, -, hrest⟩ := Except.bind_eq_ok hrest
    cases hrest
    refine ⟨⟨hfits, hbounded⟩, ?_⟩
    show r.size ≤ blk.cursor + n
    omega

theorem recycle (hblk : blk.Fillable) (serial : Nat) : (blk.recycle serial).Fillable :=
  ⟨Nat.zero_le _, hblk.bounded⟩

/-- A block that is taken back has its cursor inside. -/
theorem of_rewind (hblk : blk.Fillable) {offset : Nat} (hrun : blk.rewind b offset = .ok blk') :
    blk'.Fillable := by
  obtain ⟨-, -, hrest⟩ := Except.bind_eq_ok hrun
  cases hrest
  exact ⟨Nat.le_trans (Nat.min_le_right _ _) hblk.cursor_le, hblk.bounded⟩

end Fillable

variable {p : Platform}

/-- A new block is the same on both sides. -/
theorem make_lockstep (capacity serial : Nat) :
    Lockstep Veiled (fun x y => x = y ∧ x.Fillable) (make p capacity serial)
      (make p capacity serial) := by
  unfold make
  refine .ite (.bind (T := Eq) (.throw _) fun _ _ _ => ?rest) ?rest
  rw [layout?_eq]
  by_cases hsmall : capacity ≤ Nat.pow 2 63 - Alignment.maxNatural
  · rw [if_pos hsmall]
    have hbounded : capacity < Word.count := Nat.lt_of_le_of_lt hsmall (by decide)
    refine .bind_eq (makeRegion_lockstep p (layoutOf capacity)) fun made => ?_
    exact .pure ⟨rfl, Nat.zero_le _, hbounded⟩
  · rw [if_neg hsmall]
    exact .throw _

end Block

/-- Bytes inside a block are overwritten on the left side only. -/
theorem Action.Lockstep.fill_left {σ α β : Type} {R : σ → σ → Prop} {T : α → β → Prop}
    {a : Action σ α} {b : Action σ β} {blk : Block} (hbounded : blk.capacity < Word.count)
    {offset length : Nat} (hin : offset + length ≤ blk.capacity) (byte : UInt8)
    (hab : Lockstep (Both R Veiled) T a b) :
    Lockstep (Both R Veiled) T
      ((liftM (blk.fill offset length byte) : Action σ Unit) >>= fun _ => a) b := by
  rintro ⟨s, h⟩ st ⟨hst, hhk⟩
  have hrun : ((liftM (blk.fill offset length byte) : Action σ Unit) >>= fun _ => a) (s, h)
      = a (s, h.filled blk.region offset length byte) :=
    bind_of_ok (onHost_of_ok (blk.fill_apply byte h hin hbounded))
  have hends := hab (s, h.filled blk.region offset length byte) st
    ⟨hst, hhk.filled blk.region offset length byte⟩
  rwa [← hrun] at hends

/-- The same where the left side does so only if a condition holds. -/
theorem Action.Lockstep.filling {σ α β : Type} {R : σ → σ → Prop} {T : α → β → Prop}
    {a : Action σ α} {b d : Action σ β} {c : Bool} {blk : Block}
    (hbounded : blk.capacity < Word.count) {offset length : Nat}
    (hin : offset + length ≤ blk.capacity) (byte : UInt8) (hab : Lockstep (Both R Veiled) T a b) :
    Lockstep (Both R Veiled) T
      (if c = true then (liftM (blk.fill offset length byte) : Action σ Unit) >>= fun _ => a else a)
      (if false = true then d else b) :=
  .ite_left (.fill_left hbounded hin byte hab) hab

/-! ## Stacks -/

/-- The configuration that is the same but overwrites nothing. -/
def Config.unfilled (c : Config) : Config := { c with fill := false }

namespace Stack

/-- The stack that is the same but overwrites nothing. -/
def unfilled (s : Stack) : Stack := { s with fill := false }

/-- `s.Fillable`: whatever is taken of any block may be overwritten. -/
structure Fillable (s : Stack) : Prop where
  current : s.current.Fillable
  below : ∀ blk ∈ s.below, blk.Fillable
  cache : ∀ blk ∈ s.cache, blk.Fillable

/-- `s.Bare u`: the right side is the same stack, but overwrites nothing. -/
def Bare (s u : Stack) : Prop := s.Fillable ∧ u = s.unfilled

variable {p : Platform} {r : Request} {α β : Type} {T : α → β → Prop}

/-- An operation that looks at its stack finds the one that overwrites nothing on the right side. -/
theorem look_lockstep {f : Stack → Action Stack α} {g : Stack → Action Stack β}
    (hfg : ∀ s, s.Fillable → Lockstep (Both Bare Veiled) T (f s) (g s.unfilled)) :
    Lockstep (Both Bare Veiled) T (self >>= f) (self >>= g) := by
  refine Lockstep.bind .self fun s u hsu => ?_
  obtain ⟨hs, rfl⟩ := hsu
  exact hfg s hs

/-- The stack is replaced on both sides. -/
theorem setSelf_lockstep {s : Stack} (hs : s.Fillable) :
    Lockstep (Both Bare Veiled) Eq (setSelf s) (setSelf s.unfilled) :=
  .setSelf ⟨hs, rfl⟩

/-! ### Requests -/

/-- The books and the bytes of an allocation whose bytes lie below the cursor. -/
theorem commit_inStep {s : Stack} (hs : s.Fillable) (a : Allocation) {size : Nat}
    (hsize : size ≤ s.current.cursor) {h k : Host} (hhk : Veiled h k) :
    InStep (Both Bare Veiled) Eq (commit p a size (s, h)) (commit p a size (s.unfilled, k)) := by
  have hstart : p.build.sub s.current.cursor size = .ok (s.current.cursor - size) :=
    p.build.sub_of_le hsize
  have hin : s.current.cursor - size + size ≤ s.current.capacity := by
    have hcursor := hs.current.cursor_le
    omega
  have hrest : Lockstep (Both Bare Veiled) Eq
      (do
        let outstanding ← p.build.add s.outstanding a.reserved
        setSelf { s with outstanding }
        if s.fill then
          let start ← p.build.sub s.current.cursor size
          s.current.fill start size Config.newPattern
        return a.address)
      (do
        let outstanding ← p.build.add s.outstanding a.reserved
        setSelf { s.unfilled with outstanding }
        if s.unfilled.fill then
          let start ← p.build.sub s.current.cursor size
          s.current.fill start size Config.newPattern
        return a.address) := by
    refine .bind_eq (.check _) fun outstanding => ?_
    refine .bind (setSelf_lockstep ⟨hs.current, hs.below, hs.cache⟩) fun _ _ _ => ?_
    refine .ite_left ?_ (.pure rfl)
    rw [hstart, check_bind]
    exact .fill_left hs.current.bounded hin _ (.pure rfl)
  exact hrest (s, h) (s.unfilled, k) ⟨⟨hs, rfl⟩, hhk⟩

theorem bump_lockstep : Lockstep (Both Bare Veiled) Eq (bump p r) (bump p r) := by
  refine look_lockstep fun s hs => ?_
  show Lockstep _ _ ((liftM (s.current.tryAllocate p.build r) : Action Stack _) >>= _)
    ((liftM (s.current.tryAllocate p.build r) : Action Stack _) >>= _)
  cases htry : s.current.tryAllocate p.build r with
  | error f => exact fun _ _ hst => .error hst
  | ok served =>
    rw [check_bind, check_bind]
    cases served with
    | none => exact .pure rfl
    | some served =>
      obtain ⟨a, blk⟩ := served
      obtain ⟨hblk, hsize⟩ := hs.current.of_tryAllocate htry
      have hset : Fillable { s with current := blk } := ⟨hblk, hs.below, hs.cache⟩
      refine .setSelf_bind fun h k hhk => ?_
      refine InStep.bind (commit_inStep hset a hsize hhk) fun x y hxy => ?_
      exact Lockstep.pure (congrArg some hxy)

/-- A block is taken from the cache, or made. -/
theorem obtain_lockstep (required serial : Nat) :
    Lockstep (Both Bare Veiled) (fun x y => x = y ∧ x.Fillable) (Stack.obtain p required serial)
      (Stack.obtain p required serial) := by
  refine look_lockstep fun s hs => ?_
  have hcache : s.unfilled.cache = s.cache := rfl
  dsimp only
  rw [hcache]
  cases htaken : takeCached? required s.cache with
  | none =>
    refine .bind (.onHost (note_lockstep _)) fun _ _ _ => ?_
    exact .onHost (Block.make_lockstep _ serial)
  | some taken =>
    obtain ⟨blk, others⟩ := taken
    have hperm := (takeCached?_spec htaken).2
    have hall : ∀ other ∈ blk :: others, other.Fillable :=
      fun other hmem => hs.cache other (hperm.mem_iff.1 hmem)
    have hothers := fun other hmem => hall other (List.mem_cons_of_mem blk hmem)
    refine .bind (setSelf_lockstep ⟨hs.current, hs.below, hothers⟩) fun _ _ _ => ?_
    exact .pure ⟨rfl, (hall blk List.mem_cons_self).recycle serial⟩

theorem grow_lockstep (required : Nat) :
    Lockstep (Both Bare Veiled) Eq (grow p required) (grow p required) := by
  refine look_lockstep fun s hs => ?_
  refine .bind_eq (.check (p.build.add s.nextSerial 1)) fun nextSerial => ?_
  refine .bind (setSelf_lockstep ⟨hs.current, hs.below, hs.cache⟩) fun _ _ _ => ?_
  refine .bind (obtain_lockstep required s.nextSerial) fun blk _ hblk => ?_
  obtain ⟨rfl, hblk⟩ := hblk
  refine look_lockstep fun s₁ hs₁ => ?_
  refine .bind_eq (.check (p.build.add s₁.capacity blk.capacity)) fun capacity => ?_
  refine setSelf_lockstep ⟨hblk, fun other hmem => ?_, hs₁.cache⟩
  rcases List.mem_cons.1 hmem with rfl | hold
  · exact hs₁.current
  · exact hs₁.below other hold

theorem tryAllocate_lockstep :
    Lockstep (Both Bare Veiled) Eq (tryAllocate p r) (tryAllocate p r) :=
  .bind_eq (.check _) fun _ => bump_lockstep

theorem allocate_lockstep : Lockstep (Both Bare Veiled) Eq (allocate p r) (allocate p r) := by
  refine .bind_eq (.check _) fun _ => .bind_eq bump_lockstep fun found => ?_
  cases found with
  | some address => exact .pure rfl
  | none =>
    cases r.room? with
    | none => exact .throw _
    | some required =>
      refine .bind_eq (grow_lockstep required) fun _ => .bind_eq bump_lockstep fun found => ?_
      cases found with
      | some address => exact .pure rfl
      | none => exact .throw _

theorem allocateAll_lockstep (requests : List Request) :
    Lockstep (Both Bare Veiled) Eq (allocateAll p requests) (allocateAll p requests) := by
  induction requests with
  | nil => exact .pure rfl
  | cons r rest ih =>
    exact .bind_eq allocate_lockstep fun address => .bind_eq ih fun addresses => .pure rfl

theorem offer_lockstep : Lockstep (Both Bare Veiled) Eq (offer p r) (offer p r) := by
  refine .ite (.pure rfl) (.bind_eq tryAllocate_lockstep fun found => ?_)
  cases found with
  | some address => exact .pure rfl
  | none =>
    refine look_lockstep fun s hs => ?_
    exact .bind_eq (.check (s.capacityLeft p.build)) fun available => .pure rfl

/-! ### Unwinds -/

theorem releaseCurrent_lockstep :
    Lockstep (Both Bare Veiled) Eq (releaseCurrent p) (releaseCurrent p) := by
  refine look_lockstep fun s hs => ?_
  have hbelow : s.unfilled.below = s.below := rfl
  have hretention : s.unfilled.retention = s.retention := rfl
  dsimp only
  rw [hbelow, hretention]
  cases hrest : s.below with
  | nil => exact .pure rfl
  | cons next below =>
    have hall := hs.below
    rw [hrest] at hall
    have hnext := hall next List.mem_cons_self
    have hold := fun blk hmem => hall blk (List.mem_cons_of_mem next hmem)
    refine .bind_eq (.check (p.build.sub s.capacity s.current.capacity)) fun capacity => ?_
    refine .bind (setSelf_lockstep ⟨hnext, hold, hs.cache⟩) fun _ _ _ => ?_
    have hcursor := hs.current.cursor_le
    refine .filling hs.current.bounded (by omega) _ ?_
    cases s.retention with
    | release => exact .onHost (freeRegion_lockstep _)
    | cache =>
      refine look_lockstep fun s₁ hs₁ => ?_
      refine setSelf_lockstep ⟨hs₁.current, hs₁.below, fun blk hmem => ?_⟩
      rcases List.mem_cons.1 hmem with rfl | hcached
      · exact hs.current
      · exact hs₁.cache blk hcached

theorem releaseBlocks_lockstep (n : Nat) :
    Lockstep (Both Bare Veiled) Eq (releaseBlocks p n) (releaseBlocks p n) := by
  induction n with
  | zero => exact .pure rfl
  | succ n ih => exact .bind_eq releaseCurrent_lockstep fun _ => ih

theorem rewindCurrent_lockstep (offset : Nat) :
    Lockstep (Both Bare Veiled) Eq (rewindCurrent p offset) (rewindCurrent p offset) := by
  refine look_lockstep fun s hs => ?_
  have hmin := Nat.min_le_right offset s.current.cursor
  have hcursor := hs.current.cursor_le
  have hlength : p.build.sub s.current.cursor (min offset s.current.cursor)
      = .ok (s.current.cursor - min offset s.current.cursor) := p.build.sub_of_le hmin
  have hlast : Lockstep (Both Bare Veiled) Eq
      (do
        let current ← s.current.rewind p.build (min offset s.current.cursor)
        setSelf { s with current })
      (do
        let current ← s.current.rewind p.build (min offset s.current.cursor)
        setSelf { s.unfilled with current }) := by
    cases hrewind : s.current.rewind p.build (min offset s.current.cursor) with
    | error f => exact fun _ _ hst => .error hst
    | ok blk => exact setSelf_lockstep ⟨hs.current.of_rewind hrewind, hs.below, hs.cache⟩
  refine .ite_left ?_ hlast
  rw [hlength, check_bind]
  exact .fill_left hs.current.bounded (by omega) _ hlast

theorem unwind_lockstep (m : Marker) :
    Lockstep (Both Bare Veiled) Eq (unwind p m) (unwind p m) := by
  refine look_lockstep fun s hs => ?_
  refine .bind_eq (.check (s.checkMarker p.build m)) fun _ => ?_
  refine .bind_eq (releaseBlocks_lockstep _) fun _ => ?_
  have hlast : Lockstep (Both Bare Veiled) Eq
      (do
        rewindCurrent p m.offset
        let s ← self
        setSelf { s with outstanding := min m.outstanding s.outstanding })
      (do
        rewindCurrent p m.offset
        let s ← self
        setSelf { s with outstanding := min m.outstanding s.outstanding }) := by
    refine .bind_eq (rewindCurrent_lockstep m.offset) fun _ => look_lockstep fun s₁ hs₁ => ?_
    exact setSelf_lockstep ⟨hs₁.current, hs₁.below, hs₁.cache⟩
  exact .ite (.bind_eq (.onHost (note_lockstep _)) fun _ => hlast) hlast

theorem unwindAll_lockstep : Lockstep (Both Bare Veiled) Eq (unwindAll p) (unwindAll p) :=
  look_lockstep fun s _ => unwind_lockstep s.bottom

/-! ### From construction to the end -/

theorem make_lockstep (c : Config) : Lockstep Veiled Bare (make p c) (make p c.unfilled) := by
  refine .bind_eq freshId_lockstep fun id => ?_
  refine .bind (Block.make_lockstep c.initialBlock 0) fun first _ hfirst => ?_
  obtain ⟨rfl, hfirst⟩ := hfirst
  exact .pure ⟨⟨hfirst, nofun, nofun⟩, rfl⟩

/-- What is made of a configuration is what is made of it without overwriting. -/
theorem ofConfig_lockstep (c : Config) :
    Lockstep Veiled (Outcome Bare) (ofConfig p c) (ofConfig p c.unfilled) := by
  have hvalid : c.unfilled.validate = c.validate := rfl
  unfold ofConfig
  rw [hvalid]
  cases c.validate with
  | error e => exact .pure (.error e)
  | ok _ => exact .bind (make_lockstep c) fun s u hsu => .pure (.ok hsu)

theorem reportLeaks_lockstep :
    Lockstep (Both Bare Veiled) Eq (reportLeaks p) (reportLeaks p) := by
  refine look_lockstep fun s hs => ?_
  exact .ite (.bind_eq (.onHost (reportLeak_lockstep p s.info s.outstanding)) fun _ => .pure rfl)
    (.pure rfl)

theorem freeBlocks_lockstep (blks : List Block) :
    Lockstep Veiled Eq (freeBlocks blks) (freeBlocks blks) := by
  induction blks with
  | nil => exact .pure rfl
  | cons blk rest ih => exact .bind_eq (freeRegion_lockstep blk.region) fun _ => ih

theorem shrink_lockstep : Lockstep (Both Bare Veiled) Eq shrink shrink := by
  refine look_lockstep fun s hs => ?_
  have hlast : Lockstep (Both Bare Veiled) Eq
      (do
        setSelf { s with cache := [] }
        freeBlocks s.cache.reverse)
      (do
        setSelf { s.unfilled with cache := [] }
        freeBlocks s.cache.reverse) := by
    refine .bind_eq (setSelf_lockstep ⟨hs.current, hs.below, nofun⟩) fun _ => ?_
    exact .onHost (freeBlocks_lockstep _)
  exact .ite (.bind_eq (.onHost (note_lockstep _)) fun _ => hlast) hlast

theorem discard_lockstep : Lockstep (Both Bare Veiled) Eq (discard p) (discard p) := by
  refine .ensuring (.bind_eq reportLeaks_lockstep fun _ => .pure rfl) ?_
  exact look_lockstep fun s _ => .onHost (freeBlocks_lockstep (s.active.reverse ++ s.cache.reverse))

end Stack

/-! ## Providers -/

namespace Provider

variable {σ τ : Type}

/-- `P.Locksteps R`: from states that `R` relates, on veiled hosts, every operation is in lockstep
    with itself; and the limits are the same. -/
structure Locksteps (P : Provider σ) (R : σ → σ → Prop) : Prop where
  allocate : ∀ r, Lockstep (Both R Veiled) Eq (P.allocate r) (P.allocate r)
  tryAllocate : ∀ r, Lockstep (Both R Veiled) Eq (P.tryAllocate r) (P.tryAllocate r)
  deallocate : ∀ address r,
    Lockstep (Both R Veiled) Eq (P.deallocate address r) (P.deallocate address r)
  tryDeallocate : ∀ address r,
    Lockstep (Both R Veiled) Eq (P.tryDeallocate address r) (P.tryDeallocate address r)
  allocateArray : ∀ count e,
    Lockstep (Both R Veiled) Eq (P.allocateArray count e) (P.allocateArray count e)
  tryAllocateArray : ∀ count e,
    Lockstep (Both R Veiled) Eq (P.tryAllocateArray count e) (P.tryAllocateArray count e)
  deallocateArray : ∀ address count e, Lockstep (Both R Veiled) Eq
    (P.deallocateArray address count e) (P.deallocateArray address count e)
  tryDeallocateArray : ∀ address count e, Lockstep (Both R Veiled) Eq
    (P.tryDeallocateArray address count e) (P.tryDeallocateArray address count e)
  limits : ∀ s u, R s u → P.limits s = P.limits u

section

variable {R : σ → σ → Prop} (build : Build) {allocate : Request → Action σ Nat}
  {tryAllocate : Request → Action σ (Except AllocError Nat)}
  {deallocate : Nat → Request → Action σ Unit} {tryDeallocate : Nat → Request → Action σ Bool}
  {limits : σ → Limits}

/-- A provider that says nothing of arrays is in lockstep with itself if its plain forms are. -/
theorem locksteps_default
    (hallocate : ∀ r, Lockstep (Both R Veiled) Eq (allocate r) (allocate r))
    (htryAllocate : ∀ r, Lockstep (Both R Veiled) Eq (tryAllocate r) (tryAllocate r))
    (hdeallocate : ∀ address r,
      Lockstep (Both R Veiled) Eq (deallocate address r) (deallocate address r))
    (htryDeallocate : ∀ address r,
      Lockstep (Both R Veiled) Eq (tryDeallocate address r) (tryDeallocate address r))
    (hlimits : ∀ s u, R s u → limits s = limits u) :
    Locksteps { build, allocate, tryAllocate, deallocate, tryDeallocate, limits } R := by
  refine ⟨hallocate, htryAllocate, hdeallocate, htryDeallocate, ?_, ?_, ?_, ?_, hlimits⟩
  · intro count e
    dsimp only
    cases arraySize count e.size with
    | ok total => exact hallocate _
    | error cause => exact .throw _
  · intro count e
    dsimp only
    cases arraySize count e.size with
    | ok total => exact htryAllocate _
    | error cause => exact .pure rfl
  · intro address count e
    exact .bind_eq (.check (build.mul count e.size)) fun total => hdeallocate address _
  · intro address count e
    dsimp only
    cases Word.mul? count e.size with
    | some total => exact htryDeallocate address _
    | none => exact .pure rfl

end

section

variable {α : Type} {R : σ → σ → Prop} {S : τ → τ → Prop}

/-- Where the first of two declines, the second is asked. -/
theorem lockstep_orElse {A : Action σ (Except AllocError Nat)} {B : Action τ α} (f : Nat → α)
    (hA : Lockstep (Both R Veiled) Eq A A) (hB : Lockstep (Both S Veiled) Eq B B) :
    Lockstep (Both (Sides R S) Veiled) Eq
      (onFirst A >>= fun out => match out with
        | .ok address => pure (f address)
        | .error _ => onSecond B)
      (onFirst A >>= fun out => match out with
        | .ok address => pure (f address)
        | .error _ => onSecond B) := by
  refine .bind_eq (.onFirst hA) fun out => ?_
  cases out with
  | ok address => exact .pure rfl
  | error cause => exact .onSecond hB

/-- What the first of two does not take, the second is given. -/
theorem lockstep_orGive {A : Action σ Bool} {B : Action τ α} (x : α)
    (hA : Lockstep (Both R Veiled) Eq A A) (hB : Lockstep (Both S Veiled) Eq B B) :
    Lockstep (Both (Sides R S) Veiled) Eq
      (onFirst A >>= fun taken => if taken then pure x else onSecond B)
      (onFirst A >>= fun taken => if taken then pure x else onSecond B) :=
  .bind_eq (.onFirst hA) fun _ => .ite (.pure rfl) (.onSecond hB)

variable {P : Provider σ} {Q : Provider τ}

/-- **Two providers as one** are in lockstep with themselves if both are. -/
theorem Locksteps.fallback (hP : P.Locksteps R) (hQ : Q.Locksteps S) :
    (P.fallback Q).Locksteps (Sides R S) := by
  constructor
  · intro r
    exact lockstep_orElse id (hP.tryAllocate r) (hQ.allocate r)
  · intro r
    exact lockstep_orElse Except.ok (hP.tryAllocate r) (hQ.tryAllocate r)
  · intro address r
    refine .bind_eq (.onFirst (hP.tryDeallocate address r)) fun taken => ?_
    exact .ite (.onSecond (hQ.deallocate address r)) (.pure rfl)
  · intro address r
    exact lockstep_orGive true (hP.tryDeallocate address r) (hQ.tryDeallocate address r)
  · intro count e
    exact lockstep_orElse id (hP.tryAllocateArray count e) (hQ.allocateArray count e)
  · intro count e
    exact lockstep_orElse Except.ok (hP.tryAllocateArray count e) (hQ.tryAllocateArray count e)
  · intro address count e
    refine .bind_eq (.onFirst (hP.tryDeallocateArray address count e)) fun taken => ?_
    exact .ite (.onSecond (hQ.deallocateArray address count e)) (.pure rfl)
  · intro address count e
    dsimp only [Provider.fallback]
    cases Word.mul? count e.size with
    | some total =>
      exact lockstep_orGive true (hP.tryDeallocate address _) (hQ.tryDeallocate address _)
    | none => exact .pure rfl
  · rintro ⟨s, s'⟩ ⟨u, u'⟩ ⟨hsu, hsu'⟩
    exact congrArg₂ Limits.sup (hP.limits s u hsu) (hQ.limits s' u' hsu')

end

end Provider

theorem Budget.make_lockstep (p : Platform) (capacity : Nat) (limits : Limits) (test : FitTest) :
    Lockstep Veiled Eq (make p capacity limits test) (make p capacity limits test) := by
  unfold make
  exact .bind_eq (makeRegion_lockstep p _) fun made => .pure rfl

/-- A budget is the same on both sides. -/
theorem Budget.tryAllocate_lockstep (build : Build) (r : Request) :
    Lockstep (Both (Eq : Budget → Budget → Prop) Veiled) Eq (tryAllocate build r)
      (tryAllocate build r) := by
  refine .bind .self fun b _ heq => ?_
  subst heq
  refine .bind_eq (.check (b.limitFor build r)) fun limit => ?_
  cases limit with
  | none => exact .pure rfl
  | some limit => exact .bind_eq (.setSelf rfl) fun _ => .pure rfl

/-! ## Trees -/

namespace Tree

variable {p : Platform}

/-- `t.Bare s u`: the stacks at the leaves of the right side overwrite nothing, and otherwise the
    states are the same. -/
def Bare (t : Tree) : t.State → t.State → Prop := t.Paired Stack.Bare

/-- The state whose stacks are the same but overwrite nothing. -/
def unfilled : (t : Tree) → t.State → t.State
  | stack, s => Stack.unfilled s
  | heap, s => s
  | budget, s => s
  | fallback first second, (s, s') => (first.unfilled s, second.unfilled s')

/-- What differs in nothing but overwriting is the same without it. -/
theorem Bare.unfilled_eq {t : Tree} {s u : t.State} (hsu : t.Bare s u) :
    t.unfilled s = t.unfilled u := by
  induction t with
  | stack =>
    obtain ⟨-, rfl⟩ := hsu
    rfl
  | heap => rfl
  | budget => exact hsu
  | fallback first second ihfirst ihsecond =>
    obtain ⟨s, s'⟩ := s
    obtain ⟨u, u'⟩ := u
    exact congrArg₂ Prod.mk (ihfirst hsu.1) (ihsecond hsu.2)

/-- **A tree is in lockstep** with the one whose stacks overwrite nothing. -/
theorem provider_locksteps (t : Tree) : (t.provider p).Locksteps t.Bare := by
  induction t with
  | stack =>
    refine Provider.locksteps_default _ (fun r => Stack.allocate_lockstep)
      (fun r => Stack.offer_lockstep) (fun address r => .pure rfl) (fun address r => ?_)
      fun _ _ _ => rfl
    exact Stack.look_lockstep fun s _ => .check (s.owns p.build address)
  | heap =>
    refine Provider.locksteps_default _ (fun r => .onHost (Heap.allocate_lockstep r))
      (fun r => .onHost (Heap.tryAllocate_lockstep r))
      (fun address r => .onHost (Heap.deallocate_lockstep address r)) (fun address r => ?_)
      fun _ _ _ => rfl
    exact .bind_eq (.onHost (Heap.deallocate_lockstep address r)) fun _ => .pure rfl
  | budget =>
    refine Provider.locksteps_default _ (fun r => ?_) (fun r => Budget.tryAllocate_lockstep p.build r)
      (fun address r => .pure rfl) (fun address r => ?_) fun _ _ heq => congrArg Budget.limits heq
    · refine .bind_eq (Budget.tryAllocate_lockstep p.build r) fun out => ?_
      cases out with
      | ok address => exact .pure rfl
      | error cause => exact .throw _
    · refine .bind .self fun b _ heq => ?_
      subst heq
      exact .pure rfl
  | fallback first second ihfirst ihsecond => exact ihfirst.fallback ihsecond

/-- **The end of a tree.** -/
theorem discard_lockstep (t : Tree) :
    Lockstep (Both t.Bare Veiled) Eq (t.discard p) (t.discard p) := by
  induction t with
  | stack => exact Stack.discard_lockstep
  | heap => exact .pure rfl
  | budget =>
    refine .bind .self fun b _ heq => ?_
    subst heq
    exact .onHost (freeRegion_lockstep b.region)
  | fallback first second ihfirst ihsecond => exact .ensuring (.onFirst ihfirst) (.onSecond ihsecond)

/-- What is read off the leaves, and says nothing of overwriting at a stack, is the same on both
    sides. -/
theorem Bare.congr {α : Type} {f : (t : Tree) → t.State → α}
    (hstack : ∀ s : Stack, f stack s = f stack s.unfilled)
    (hfallback : ∀ {first second : Tree} {s u : first.State} {s' u' : second.State},
      f first s = f first u → f second s' = f second u' →
        f (fallback first second) (s, s') = f (fallback first second) (u, u'))
    {t : Tree} {s u : t.State} (hsu : t.Bare s u) : f t s = f t u := by
  induction t with
  | stack =>
    obtain ⟨-, rfl⟩ := hsu
    exact hstack s
  | heap => rfl
  | budget =>
    obtain rfl : s = u := hsu
    rfl
  | fallback first second ihfirst ihsecond =>
    obtain ⟨s, s'⟩ := s
    obtain ⟨u, u'⟩ := u
    exact hfallback (ihfirst hsu.1) (ihsecond hsu.2)

/-- The leaf that would take an address back. -/
theorem taker?_of_bare (b : Build) {t : Tree} {s u : t.State} (hsu : t.Bare s u) (address : Nat) :
    t.taker? b s address = t.taker? b u address := by
  refine hsu.congr (f := fun t s => t.taker? b s address) (fun _ => rfl) fun hfirst hsecond => ?_
  rw [taker?, taker?, hfirst, hsecond]

/-- The debug text does not say whether bytes are overwritten. -/
theorem debug_of_bare {t : Tree} {s u : t.State} (hsu : t.Bare s u) : t.debug s = t.debug u := by
  refine hsu.congr (f := debug) (fun _ => rfl) ?_
  intro first second s u s' u' hfirst hsecond
  have hview : ∀ x y, (fallback first second).debug (x, y)
      = s!"FallbackAllocator \x7b default: {first.debug x}, fallback: {second.debug y} \x7d" :=
    fun _ _ => rfl
  rw [hview, hview, hfirst, hsecond]

end Tree

/-! ## Recipes -/

/-- The allocator whose stacks are the same but overwrite nothing. -/
def Allocator.unfilled (a : Allocator) : Allocator := ⟨a.tree, a.tree.unfilled a.state⟩

/-- `Allocator.Bare a b`: allocators of one shape whose states are the same, but that the stacks of
    the right side overwrite nothing. -/
inductive Allocator.Bare : Allocator → Allocator → Prop
  | mk {t : Tree} {s u : t.State} (hsu : t.Bare s u) : Bare ⟨t, s⟩ ⟨t, u⟩

namespace Allocator.Bare

variable {p : Platform} {a b c d : Allocator}

theorem unfilled_eq (hab : Bare a b) : a.unfilled = b.unfilled := by
  cases hab with
  | mk hsu => exact congrArg (Allocator.mk _) (Tree.Bare.unfilled_eq hsu)

theorem fallback (hab : Bare a b) (hcd : Bare c d) :
    Bare ⟨.fallback a.tree c.tree, (a.state, c.state)⟩
      ⟨.fallback b.tree d.tree, (b.state, d.state)⟩ := by
  cases hab with
  | mk hfirst =>
    cases hcd with
    | mk hsecond => exact .mk ⟨hfirst, hsecond⟩

/-- Both come to their end. -/
theorem discard (hab : Bare a b) :
    Lockstep Veiled Eq (withState a.state (a.tree.discard p))
      (withState b.state (b.tree.discard p)) := by
  cases hab with
  | mk hsu => exact .withState (Tree.discard_lockstep _) hsu

end Allocator.Bare

namespace Recipe

/-- The recipe that is the same but for stacks that overwrite nothing. -/
def unfilled : Recipe → Recipe
  | stack c => stack c.unfilled
  | heap => heap
  | budget capacity limits test => budget capacity limits test
  | fallback first second => fallback first.unfilled second.unfilled

/-- **What a recipe makes** is what the recipe makes whose stacks overwrite nothing. -/
theorem make_lockstep (p : Platform) (r : Recipe) :
    Lockstep Veiled (Outcome fun s u => Allocator.Bare ⟨r.tree, s⟩ ⟨r.unfilled.tree, u⟩)
      (r.make p) (r.unfilled.make p) := by
  induction r with
  | stack c =>
    refine (Stack.ofConfig_lockstep c).mono_value fun x y hxy => ?_
    cases hxy with
    | ok hsu => exact .ok (.mk hsu)
    | error e => exact .error e
  | heap => exact .pure (.ok (.mk trivial))
  | budget capacity limits test =>
    refine .bind_eq (Budget.make_lockstep p capacity limits test) fun b => ?_
    exact .pure (.ok (.mk rfl))
  | fallback first second ihfirst ihsecond =>
    refine .bind ihfirst fun x y hxy => ?_
    cases hxy with
    | error e => exact .pure (.error e)
    | ok hfirst =>
      refine .bind ihsecond.attempt fun x y hxy => ?_
      cases hxy with
      | error f => exact .bind_eq hfirst.discard fun _ => .throw f
      | ok hxy =>
        cases hxy with
        | error e => exact .bind_eq hfirst.discard fun _ => .pure (.error e)
        | ok hsecond => exact .pure (.ok (hfirst.fallback hsecond))

end Recipe

end StackArena
