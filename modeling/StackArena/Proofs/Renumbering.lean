/-
  Other serials.

  A stack takes a serial for every attempt to grow, so an attempt that fails leaves a gap in the
  serials of the blocks to come.  Nothing else of the stack can tell: serials are only compared with
  each other, and only for equality.

  1. A **renumbering** gives other serials to the blocks of each stack and keeps their order.
     `Renumbering.skip` leaves one serial of one stack out.
  2. A stack and its **twin** differ in the serials by a renumbering (`Stack.Twin`), for as many
     growths to come as are counted with it.
  3. Every operation on a stack agrees with itself on twins: it ends alike, with twins again.
-/
import StackArena.Proofs.Agreement
import StackArena.Provider.Stack
import StackArena.Stack.Unwind
import Mathlib.Order.WellFounded

namespace StackArena

/-! ## Renumberings -/

/-- `Renumbering`: other serials for the blocks of each stack, in the same order. -/
structure Renumbering where
  serial : AllocatorId → Nat → Nat
  mono : ∀ id, StrictMono (serial id)

/-- Serial `n` of stack `id` is left out. -/
def Renumbering.skip (id : AllocatorId) (n : Nat) : Renumbering where
  serial other k := if other = id ∧ n ≤ k then k + 1 else k
  mono := by
    intro other k l hkl
    dsimp only
    split
    · rename_i hlate
      rw [if_pos ⟨hlate.1, by omega⟩]
      omega
    · split <;> omega

variable (ρ : Renumbering)

/-- A marker under the new serial of its block. -/
def Marker.renumber (m : Marker) : Marker := { m with serial := ρ.serial m.stack m.serial }

@[simp] theorem Marker.stack_renumber (m : Marker) : (m.renumber ρ).stack = m.stack := rfl

@[simp] theorem Marker.depth_renumber (m : Marker) : (m.renumber ρ).depth = m.depth := rfl

/-- A block of stack `id` under its new serial. -/
def Block.renumber (id : AllocatorId) (blk : Block) : Block :=
  { blk with serial := ρ.serial id blk.serial }

namespace Stack

/-- A stack with new serials. -/
def renumber (s : Stack) : Stack :=
  { s with
    current := s.current.renumber ρ s.id
    below := s.below.map (Block.renumber ρ s.id)
    cache := s.cache.map (Block.renumber ρ s.id)
    nextSerial := ρ.serial s.id s.nextSerial
    bottom := s.bottom.renumber ρ }

@[simp] theorem id_renumber (s : Stack) : (s.renumber ρ).id = s.id := rfl

/-- `Twin ρ id room s t`: the stack with identity `id` and its twin, which has other serials.  The
    serials to come are one after the other in both, and last for `room` growths. -/
structure Twin (id : AllocatorId) (room : Nat) (s t : Stack) : Prop where
  id_eq : s.id = id
  eq : t = s.renumber ρ
  steady : ∀ n, s.nextSerial ≤ n → ρ.serial id (n + 1) = ρ.serial id n + 1
  lasts : ρ.serial id s.nextSerial + room < Word.count

variable {ρ} {id : AllocatorId} {room : Nat} {s t : Stack}

/-- Whatever is done to both but taking serials, they stay twins. -/
theorem Twin.change (hst : Twin ρ id room s t) {s' t' : Stack} (hid : s'.id = s.id)
    (hnext : s'.nextSerial = s.nextSerial) (heq : t' = s'.renumber ρ) : Twin ρ id room s' t' := by
  refine ⟨hid.trans hst.id_eq, heq, ?_, ?_⟩
  · rw [hnext]
    exact hst.steady
  · rw [hnext]
    exact hst.lasts

/-- Twins for many growths are twins for fewer. -/
theorem Twin.fewer (hst : Twin ρ id (room + 1) s t) : Twin ρ id room s t :=
  ⟨hst.id_eq, hst.eq, hst.steady, Nat.lt_of_succ_lt hst.lasts⟩

end Stack

/-! ## Blocks under other serials -/

open StackArena.Action Host

variable {ρ} {id : AllocatorId} {j j' : List Note}

namespace Block

/-- A request is served under any serial. -/
theorem tryAllocate_renumber (b : Build) (blk : Block) (r : Request) :
    (blk.renumber ρ id).tryAllocate b r
      = (blk.tryAllocate b r).map (Option.map (Prod.map (fun a => a) (renumber ρ id))) := by
  have hspan : (blk.renumber ρ id).spanFor b r = blk.spanFor b r := rfl
  rw [tryAllocate, tryAllocate, hspan]
  cases blk.spanFor b r with
  | error f => rfl
  | ok span =>
    cases span with
    | none => rfl
    | some reserved =>
      rw [Except.ok_bind, Except.ok_bind]
      show (b.add blk.cursor reserved >>= _) = Except.map _ (b.add blk.cursor reserved >>= _)
      cases b.add blk.cursor reserved with
      | error f => rfl
      | ok cursor =>
        rw [Except.ok_bind, Except.ok_bind]
        cases b.sub cursor r.size with
        | error f => rfl
        | ok start =>
          rw [Except.ok_bind, Except.ok_bind]
          show (blk.addressAt start >>= _) = Except.map _ (blk.addressAt start >>= _)
          cases blk.addressAt start <;> rfl

theorem rewind_renumber (b : Build) (offset : Nat) (blk : Block) :
    (blk.renumber ρ id).rewind b offset = (blk.rewind b offset).map (renumber ρ id) := by
  unfold rewind
  show (b.require (offset ≤ blk.cursor) (.rewindForward offset blk.cursor) >>= _) = _
  cases b.require (offset ≤ blk.cursor) (.rewindForward offset blk.cursor) <;> rfl

/-- Two blocks that are made under a serial and the new one. -/
theorem make_agree (p : Platform) (capacity serial : Nat) :
    Agree (Beside j j') (Beside j j') (fun x y => y = x.renumber ρ id) (make p capacity serial)
      (make p capacity (ρ.serial id serial)) := by
  unfold make
  -- After the check of the capacity both go on in the same way.
  refine .ite (.bind (T := Eq) (.throw rfl) fun _ _ _ => ?rest) ?rest
  cases (Request.mk capacity Alignment.maxNatural).layout? with
  | none => exact .throw rfl
  | some layout =>
    refine .bind_eq (makeRegion_agree p layout) fun made => ?_
    exact .pure rfl

theorem free_agree (blk : Block) :
    Agree (Beside j j') (Beside j j') Eq blk.free (blk.renumber ρ id).free :=
  freeRegion_agree blk.region

theorem fill_agree (blk : Block) (offset length : Nat) (byte : UInt8) :
    Agree (Beside j j') (Beside j j') Eq (blk.fill offset length byte)
      ((blk.renumber ρ id).fill offset length byte) := by
  unfold fill
  cases Word.add? offset length with
  | none => exact .throw rfl
  | some limit =>
    refine .ite ?_ (.throw rfl)
    exact changeMemory_agree fun m => m.fill blk.region offset length byte

end Block

/-! ## Requests to twins -/

namespace Stack

variable {room : Nat} {p : Platform} {r : Request}

/-- Twins, each with its host. -/
abbrev Twins (ρ : Renumbering) (id : AllocatorId) (room : Nat) (j j' : List Note) :
    Stack × Host → Stack × Host → Prop :=
  Both (Twin ρ id room) (Beside j j')

theorem Twins.fewer : ∀ st st', Twins ρ id (room + 1) j j' st st' → Twins ρ id room j j' st st' :=
  Both.imp fun _ _ hst => hst.fewer

/-- An operation that looks at its stack finds the new serials on the other side. -/
theorem look_agree {α β : Type} {R : Stack × Host → Stack × Host → Prop} {T : α → β → Prop}
    {f : Stack → Action Stack α} {g : Stack → Action Stack β}
    (hfg : ∀ s, Twin ρ id room s (s.renumber ρ) →
      Agree (Twins ρ id room j j') R T (f s) (g (s.renumber ρ))) :
    Agree (Twins ρ id room j j') R T (self >>= f) (self >>= g) := by
  rintro ⟨s, h⟩ ⟨t, k⟩ ⟨hst, hhk⟩
  have heq := hst.eq
  subst heq
  exact hfg s hst (s, h) (s.renumber ρ, k) ⟨hst, hhk⟩

theorem commit_agree (a : Allocation) (size : Nat) :
    Agree (Twins ρ id room j j') (Twins ρ id room j j') Eq (commit p a size) (commit p a size) := by
  refine look_agree fun s hst => ?_
  refine .bind_eq (.check (p.build.add s.outstanding a.reserved)) fun outstanding => ?_
  refine .bind (.setSelf (hst.change rfl rfl rfl)) fun _ _ _ => ?_
  refine .ite (.bind_eq (.check (p.build.sub s.current.cursor size)) fun start => ?_) (.pure rfl)
  exact .bind (.onHost (Block.fill_agree _ _ _ _)) fun _ _ _ => .pure rfl

theorem bump_agree :
    Agree (Twins ρ id room j j') (Twins ρ id room j j') Eq (bump p r) (bump p r) := by
  refine look_agree fun s hst => ?_
  show Agree _ _ _ _ (liftM ((s.current.renumber ρ s.id).tryAllocate p.build r) >>= _)
  rw [Block.tryAllocate_renumber]
  refine .bind (.check_map _ _) fun res _ heq => ?_
  subst heq
  cases res with
  | none => exact .pure rfl
  | some served =>
    refine .bind (.setSelf (hst.change rfl rfl rfl)) fun _ _ _ => ?_
    refine .bind (commit_agree served.1 r.size) fun address _ heq => ?_
    exact .pure (congrArg some heq)

theorem takeCached?_map (f : Block → Block) (hf : ∀ blk, (f blk).capacity = blk.capacity)
    (required : Nat) (cache : List Block) :
    takeCached? required (cache.map f)
      = (takeCached? required cache).map (Prod.map f (List.map f)) := by
  induction cache with
  | nil => rfl
  | cons blk rest ih =>
    rw [List.map_cons, takeCached?, takeCached?, hf, ih]
    split
    · rfl
    · cases takeCached? required rest <;> rfl

/-- What is put on top goes by the new serial. -/
theorem obtain_agree (required serial : Nat) :
    Agree (Twins ρ id room j j') (Twins ρ id room j j') (fun x y => y = x.renumber ρ id)
      (Stack.obtain p required serial) (Stack.obtain p required (ρ.serial id serial)) := by
  refine look_agree fun s hst => ?_
  have hid := hst.id_eq
  subst hid
  have hcache : takeCached? required (s.renumber ρ).cache = (takeCached? required s.cache).map
      (Prod.map (Block.renumber ρ s.id) (List.map (Block.renumber ρ s.id))) :=
    takeCached?_map (Block.renumber ρ s.id) (fun _ => rfl) required s.cache
  rw [hcache]
  cases takeCached? required s.cache with
  | some found => exact .bind (.setSelf (hst.change rfl rfl rfl)) fun _ _ _ => .pure rfl
  | none =>
    refine .bind (.onHost (note_agree _)) fun _ _ _ => ?_
    exact .onHost (Block.make_agree p _ _)

/-- **A growth** takes a serial on both sides. -/
theorem grow_agree (required : Nat) :
    Agree (Twins ρ id (room + 1) j j') (Twins ρ id room j j') Eq (grow p required)
      (grow p required) := by
  refine look_agree fun s hst => ?_
  have hid := hst.id_eq
  subst hid
  have hnext := hst.steady s.nextSerial (Nat.le_refl _)
  have hlasts := hst.lasts
  have hle : s.nextSerial ≤ ρ.serial s.id s.nextSerial := (ρ.mono s.id).le_apply
  have htwin : Twin ρ s.id room { s with nextSerial := s.nextSerial + 1 }
      (({ s with nextSerial := s.nextSerial + 1 } : Stack).renumber ρ) := by
    refine ⟨rfl, rfl, fun n hn => hst.steady n (Nat.le_of_succ_le hn), ?_⟩
    show ρ.serial s.id (s.nextSerial + 1) + room < Word.count
    omega
  -- The serials last, so neither side stops at the sum, and both have taken one then.
  have hfirst : p.build.add s.nextSerial 1 = .ok (s.nextSerial + 1) :=
    p.build.add_of_lt (by omega)
  have hsecond : p.build.add (s.renumber ρ).nextSerial 1
      = .ok (ρ.serial s.id (s.nextSerial + 1)) := by
    rw [hnext]
    exact p.build.add_of_lt (by show ρ.serial s.id s.nextSerial + 1 < _; omega)
  rw [hfirst, hsecond, check_bind, check_bind]
  refine .bind (.setSelf htwin) fun _ _ _ => ?_
  refine .bind (obtain_agree required s.nextSerial) fun blk _ heq => ?_
  subst heq
  refine look_agree fun s₁ hst₁ => ?_
  have hid := hst₁.id_eq
  refine .bind_eq (.check (p.build.add s₁.capacity blk.capacity)) fun capacity => ?_
  refine .mono_value (.setSelf (hst₁.change rfl rfl ?_)) fun _ _ _ => rfl
  rw [← hid]
  rfl

/-- A request to the current block. -/
theorem tryAllocate_agree :
    Agree (Twins ρ id room j j') (Twins ρ id room j j') Eq (tryAllocate p r) (tryAllocate p r) :=
  .bind (.check _) fun _ _ _ => bump_agree

/-- **A request that may take a growth.** -/
theorem allocate_agree :
    Agree (Twins ρ id (room + 1) j j') (Twins ρ id room j j') Eq (allocate p r) (allocate p r) := by
  refine .bind_mono (.check _) Twins.fewer fun _ _ _ => ?_
  refine .bind_mono bump_agree Twins.fewer fun found _ heq => ?_
  subst heq
  cases found with
  | some address => exact .mono (.pure rfl) Twins.fewer fun _ _ hst => hst
  | none =>
    cases r.room? with
    | none => exact .mono (.throw rfl) Twins.fewer fun _ _ hst => hst
    | some required =>
      refine .bind (grow_agree required) fun _ _ _ => .bind_eq bump_agree fun found => ?_
      cases found with
      | some address => exact .pure rfl
      | none => exact .throw rfl

/-- A request with a cause where it is declined. -/
theorem offer_agree :
    Agree (Twins ρ id room j j') (Twins ρ id room j j') Eq (offer p r) (offer p r) := by
  refine .ite (.pure rfl) ?_
  refine .bind_eq tryAllocate_agree fun found => ?_
  cases found with
  | some address => exact .pure rfl
  | none =>
    refine look_agree fun s hst => ?_
    refine .bind_eq (.check (s.capacityLeft p.build)) fun available => ?_
    exact .pure rfl

/-! ## Questions to twins -/

/-- The position of the twin is the same up to the serial. -/
theorem top_renumber (s : Stack) : (s.renumber ρ).top = s.top.renumber ρ := by
  have hcount : (s.renumber ρ).blockCount = s.blockCount := by
    show (s.below.map _).length + 1 = s.below.length + 1
    rw [List.length_map]
  show Marker.mk s.id (s.renumber ρ).blockCount _ _ _ = Marker.mk s.id s.blockCount _ _ _
  rw [hcount]
  rfl

theorem active_renumber (s : Stack) :
    (s.renumber ρ).active = s.active.map (Block.renumber ρ s.id) := rfl

theorem owns_renumber (b : Build) (s : Stack) (address : Nat) :
    (s.renumber ρ).owns b address = s.owns b address := by
  have hany : ∀ blks : List Block, (blks.map (Block.renumber ρ s.id)).anyM
      (fun blk => blk.contains b address) = blks.anyM fun blk => blk.contains b address := by
    intro blks
    induction blks with
    | nil => rfl
    | cons blk rest ih =>
      rw [List.map_cons, List.anyM_cons, List.anyM_cons, ih]
      rfl
  rw [owns, active_renumber, ← List.map_reverse]
  exact hany s.active.reverse

/-! ## Unwinds of twins -/

theorem blockCount_renumber (s : Stack) : (s.renumber ρ).blockCount = s.blockCount :=
  congrArg (· + 1) (List.length_map _)

theorem blockAt?_renumber (s : Stack) (depth : Nat) :
    (s.renumber ρ).blockAt? depth = (s.blockAt? depth).map (Block.renumber ρ s.id) := by
  unfold blockAt?
  split
  · rfl
  · rw [active_renumber, ← List.map_reverse, List.getElem?_map]

/-- What is wrong with a marker inside a block is wrong under the new serials, too: of two serials
    it only matters whether they are the same. -/
theorem blockObjection?_renumber (ρ : Renumbering) (m : Marker) (blk : Block) :
    (blockObjection? (m.renumber ρ) (blk.renumber ρ m.stack)).map Fault.unnamed
      = (blockObjection? m blk).map Fault.unnamed := by
  have hserial : (m.renumber ρ).serial = (blk.renumber ρ m.stack).serial ↔ m.serial = blk.serial :=
    (ρ.mono m.stack).injective.eq_iff
  unfold blockObjection?
  by_cases hsame : m.serial = blk.serial
  · rw [if_neg (not_not.2 (hserial.2 hsame)), if_neg (not_not.2 hsame)]
    rfl
  · rw [if_pos (fun heq => hsame (hserial.1 heq)), if_pos hsame]
    rfl

theorem objection?_renumber (ρ : Renumbering) (s : Stack) (m : Marker) :
    ((s.renumber ρ).objection? (m.renumber ρ)).map Fault.unnamed
      = (s.objection? m).map Fault.unnamed := by
  unfold objection?
  rw [Marker.stack_renumber, id_renumber]
  by_cases hstack : m.stack = s.id
  · rw [if_neg (not_not.2 hstack), if_neg (not_not.2 hstack), Marker.depth_renumber,
      blockAt?_renumber, blockCount_renumber]
    cases s.blockAt? m.depth with
    | none => rfl
    | some blk =>
      have hinside := blockObjection?_renumber ρ m blk
      rw [hstack] at hinside
      dsimp only [Option.map_some]
      generalize blockObjection? (m.renumber ρ) (blk.renumber ρ s.id) = left at hinside ⊢
      generalize blockObjection? m blk = right at hinside ⊢
      cases left with
      | none =>
        cases right with
        | none => rfl
        | some f => nomatch hinside
      | some f =>
        cases right with
        | none => nomatch hinside
        | some g => exact hinside
  · rw [if_pos hstack, if_pos hstack]

/-- A debug build stops on the twin as it does on the stack. -/
theorem checkMarker_agree (b : Build) (s : Stack) (m : Marker)
    {R : Stack × Host → Stack × Host → Prop} :
    Agree R R Eq (liftM (s.checkMarker b m) : Action Stack Unit)
      (liftM ((s.renumber ρ).checkMarker b (m.renumber ρ))) := by
  have hobjection := objection?_renumber ρ s m
  intro st st' hst
  unfold checkMarker
  cases b with
  | release => exact .ok rfl hst
  | debug =>
    generalize (s.renumber ρ).objection? (m.renumber ρ) = left at hobjection ⊢
    generalize s.objection? m = right at hobjection ⊢
    cases left with
    | none =>
      cases right with
      | none => exact .ok rfl hst
      | some f => nomatch hobjection
    | some f =>
      cases right with
      | none => nomatch hobjection
      | some g => exact .error (Option.some.inj hobjection).symm hst

theorem releaseCurrent_agree :
    Agree (Twins ρ id room j j') (Twins ρ id room j j') Eq (releaseCurrent p)
      (releaseCurrent p) := by
  refine look_agree fun s hst => ?_
  have hid := hst.id_eq
  subst hid
  have hbelow : (s.renumber ρ).below = s.below.map (Block.renumber ρ s.id) := rfl
  rw [hbelow]
  cases s.below with
  | nil => exact .pure rfl
  | cons next below =>
    refine .bind_eq (.check (p.build.sub s.capacity s.current.capacity)) fun capacity => ?_
    refine .bind (.setSelf (hst.change rfl rfl rfl)) fun _ _ _ => ?_
    refine .ite (.bind (.onHost (Block.fill_agree _ _ _ _)) fun _ _ _ => ?rest) ?rest
    have hretention : (s.renumber ρ).retention = s.retention := rfl
    rw [hretention]
    cases s.retention with
    | release => exact .onHost (Block.free_agree _)
    | cache =>
      refine look_agree fun s₁ hst₁ => ?_
      have hid := hst₁.id_eq
      have hreleased : (s.renumber ρ).current = s.current.renumber ρ s₁.id := by
        rw [hid]
        rfl
      rw [hreleased]
      exact .mono_value (.setSelf (hst₁.change rfl rfl rfl)) fun _ _ _ => rfl

theorem releaseBlocks_agree (n : Nat) :
    Agree (Twins ρ id room j j') (Twins ρ id room j j') Eq (releaseBlocks p n)
      (releaseBlocks p n) := by
  induction n with
  | zero => exact .pure rfl
  | succ n ih => exact .bind releaseCurrent_agree fun _ _ _ => ih

theorem rewindCurrent_agree (offset : Nat) :
    Agree (Twins ρ id room j j') (Twins ρ id room j j') Eq (rewindCurrent p offset)
      (rewindCurrent p offset) := by
  refine look_agree fun s hst => ?_
  have hlast : Agree (Twins ρ id room j j') (Twins ρ id room j j') Eq
      (liftM (s.current.rewind p.build (min offset s.current.cursor)) >>= fun current =>
        setSelf { s with current })
      (liftM ((s.renumber ρ).current.rewind p.build (min offset s.current.cursor)) >>=
        fun current => setSelf { s.renumber ρ with current }) := by
    show Agree _ _ _ _ (liftM ((s.current.renumber ρ s.id).rewind p.build _) >>= _)
    rw [Block.rewind_renumber]
    refine .bind (.check_map _ _) fun current _ heq => ?_
    subst heq
    exact .mono_value (.setSelf (hst.change rfl rfl rfl)) fun _ _ _ => rfl
  refine .ite (.bind_eq (.check (p.build.sub s.current.cursor (min offset s.current.cursor)))
    fun length => ?_) hlast
  exact .bind (.onHost (Block.fill_agree _ _ _ _)) fun _ _ _ => hlast

/-- **An unwind** of the twin is one to the marker under its new serial. -/
theorem unwind_agree (m : Marker) :
    Agree (Twins ρ id room j j') (Twins ρ id room j j') Eq (unwind p m)
      (unwind p (m.renumber ρ)) := by
  refine look_agree fun s hst => ?_
  refine .bind (checkMarker_agree p.build s m) fun _ _ _ => ?_
  have hkept : (s.renumber ρ).keptDepth (m.renumber ρ).depth = s.keptDepth m.depth := by
    unfold keptDepth
    rw [blockCount_renumber, Marker.depth_renumber]
  rw [hkept, blockCount_renumber]
  have hlast : Agree (Twins ρ id room j j') (Twins ρ id room j j') Eq
      (do
        rewindCurrent p m.offset
        let s ← self
        setSelf { s with outstanding := min m.outstanding s.outstanding })
      (do
        rewindCurrent p m.offset
        let s ← self
        setSelf { s with outstanding := min m.outstanding s.outstanding }) := by
    refine .bind (rewindCurrent_agree m.offset) fun _ _ _ => look_agree fun s₁ hst₁ => ?_
    exact .mono_value (.setSelf (hst₁.change rfl rfl rfl)) fun _ _ _ => rfl
  refine .bind (releaseBlocks_agree _) fun _ _ _ => ?_
  exact .ite (.bind (.onHost (note_agree _)) fun _ _ _ => hlast) hlast

theorem unwindAll_agree :
    Agree (Twins ρ id room j j') (Twins ρ id room j j') Eq (unwindAll p) (unwindAll p) := by
  refine look_agree fun s hst => ?_
  exact unwind_agree s.bottom

/-! ## Reports, trimming and the end of twins -/

theorem reportLeaks_agree :
    Agree (Twins ρ id room j j') (Twins ρ id room j j') Eq (reportLeaks p) (reportLeaks p) := by
  refine look_agree fun s hst => ?_
  exact .ite (.bind (.onHost (reportLeak_agree p _ _)) fun _ _ _ => .pure rfl) (.pure rfl)

theorem freeBlocks_agree (blks : List Block) :
    Agree (Beside j j') (Beside j j') Eq (freeBlocks blks)
      (freeBlocks (blks.map (Block.renumber ρ id))) := by
  induction blks with
  | nil => exact .pure rfl
  | cons blk rest ih => exact .bind (Block.free_agree blk) fun _ _ _ => ih

theorem shrink_agree :
    Agree (Twins ρ id room j j') (Twins ρ id room j j') Eq shrink shrink := by
  refine look_agree fun s hst => ?_
  have hlast : Agree (Twins ρ id room j j') (Twins ρ id room j j') Eq
      (do
        setSelf { s with cache := [] }
        liftM (freeBlocks s.cache.reverse))
      (do
        setSelf { s.renumber ρ with cache := [] }
        liftM (freeBlocks (s.renumber ρ).cache.reverse)) := by
    refine .bind (.setSelf (hst.change rfl rfl rfl)) fun _ _ _ => .onHost ?_
    show Agree _ _ _ _ (freeBlocks (s.cache.map (Block.renumber ρ s.id)).reverse)
    rw [← List.map_reverse]
    exact freeBlocks_agree _
  have hempty : (s.renumber ρ).cache.isEmpty = s.cache.isEmpty := List.isEmpty_map
  have hlength : (s.renumber ρ).cache.length = s.cache.length := List.length_map _
  rw [hempty, hlength]
  exact .ite (.bind (.onHost (note_agree _)) fun _ _ _ => hlast) hlast

/-- **The end** of a stack is that of its twin. -/
theorem discard_agree :
    Agree (Twins ρ id room j j') (Twins ρ id room j j') Eq (discard p) (discard p) := by
  refine .ensuring (.bind reportLeaks_agree fun _ _ _ => .pure rfl) (look_agree fun s hst => ?_)
  refine .onHost ?_
  have hblocks : (s.renumber ρ).active.reverse ++ (s.renumber ρ).cache.reverse
      = (s.active.reverse ++ s.cache.reverse).map (Block.renumber ρ s.id) := by
    rw [List.map_append, List.map_reverse, List.map_reverse]
    rfl
  rw [hblocks]
  exact freeBlocks_agree _

end Stack

end StackArena
