/-
  Which markers a debug build accepts, and where an unwind to one of them leads.

  The checks look at a stack as it is; what they mean is about its past.  A marker is captured on a
  stack `s₀`.  From then on the stack stands **above** `s₀`: the block that was current is active,
  on the blocks that lay below it, as they were.  When that block is released the marker is
  **expired**, for good, since its serial is not given again.

  1. `Above` and `Expired` are carried by every change, and one of them always holds.
  2. A world **follows** `s₀` in a slot: its identity is nobody else's, and its fate is one of the
     two.  The fate is `Expired` just when the block was released at some point of the run
     (`released_iff`), wherever its region has gone since.
  3. The checks accept the marker exactly as long as the stack stands above `s₀` with the cursor of
     that block not before the offset; the unwind then leads back to `s₀`.
-/
import StackArena.Proofs.Books

namespace StackArena

namespace Stack

variable {p : Platform} {gap : Nat} {s₀ s s' : Stack} {h h' : Host}

/-! ## Above and expired -/

/-- `Above s₀ s`: the current block of `s₀` is active in `s`, on the same blocks as in `s₀`. -/
def Above (s₀ s : Stack) : Prop :=
  ∃ newer cursor, s.active = newer ++ { s₀.current with cursor } :: s₀.below

/-- No active block has the serial, and none will. -/
def Expired (serial : Nat) (s : Stack) : Prop :=
  serial < s.nextSerial ∧ ∀ blk ∈ s.active, blk.serial ≠ serial

theorem Above.refl (s : Stack) : Above s s := ⟨[], s.current.cursor, rfl⟩

theorem Above.mem (ha : Above s₀ s) : ∃ blk ∈ s.active,
    blk.serial = s₀.current.serial ∧ blk.region = s₀.current.region := by
  obtain ⟨newer, cursor, hactive⟩ := ha
  refine ⟨{ s₀.current with cursor }, ?_, rfl, rfl⟩
  rw [hactive]
  exact List.mem_append_cons_self

theorem Above.not_expired (ha : Above s₀ s) : ¬Expired s₀.current.serial s := by
  intro he
  obtain ⟨blk, hblk, hserial, -⟩ := ha.mem
  exact he.2 blk hblk hserial

/-- A turn of the current block leaves the stack above. -/
theorem Above.turn (ha : Above s₀ s) {cursor : Nat}
    (hactive' : s'.active = { s.current with cursor } :: s.below) : Above s₀ s' := by
  obtain ⟨newer, cursor₀, hactive⟩ := ha
  cases newer with
  | nil =>
    obtain ⟨hcurrent, hbelow⟩ := List.cons.inj hactive
    exact ⟨[], cursor, by rw [hactive', hcurrent, hbelow]; rfl⟩
  | cons top newer =>
    obtain ⟨-, hbelow⟩ := List.cons.inj hactive
    exact ⟨{ s.current with cursor } :: newer, cursor₀, by rw [hactive', hbelow]; rfl⟩

theorem Bump.above {r : Request} {out : Except Fault (Option Nat)} (ha : Above s₀ s)
    (hbump : Bump p r s h (out, s', h')) : Above s₀ s' := by
  cases hbump with
  | declined => exact ha
  | overdrawn => exact ha.turn rfl
  | served => exact ha.turn rfl

theorem Grow.above {required : Nat} {out : Except Fault Unit} (ha : Above s₀ s)
    (hgrow : Grow p required s h (out, s', h')) : Above s₀ s' := by
  obtain ⟨newer, cursor, hactive⟩ := ha
  cases out with
  | ok u =>
    obtain ⟨blk, others, n, rfl, -⟩ := hgrow.push_eq
    refine ⟨blk :: newer, cursor, ?_⟩
    show blk :: s.active = _
    rw [hactive]
    rfl
  | error f => rcases hgrow.of_error with rfl | ⟨n, -, rfl⟩ <;> exact ⟨newer, cursor, hactive⟩

/-- A request leaves the stack above. -/
theorem Serves.above {r : Request} {out : Except Fault (Option Nat)} (ha : Above s₀ s)
    (hserves : Serves p r s h (out, s', h')) : Above s₀ s' :=
  hserves.keeps (P := fun s' _ => Above s₀ s') ha (fun hgrow => hgrow.above ha)
    fun hfirst hbump => hbump.above hfirst

/-- An unwind leaves the stack above, or nothing of the block is left. -/
theorem unwound_above (m : Marker) (ha : Above s₀ s) (hordered : s.Ordered)
    (hl : Lodged h.memory s) : Above s₀ (s.unwound m) ∨
      ∀ blk ∈ (s.unwound m).active,
        blk.serial ≠ s₀.current.serial ∧ blk.region ≠ s₀.current.region := by
  obtain ⟨newer, cursor, hactive⟩ := ha
  obtain ⟨blk, rest, hdrop, hcurrent, hbelow⟩ := s.active_unwound m
  have hactive' : (s.unwound m).active
      = { blk with cursor := min m.offset blk.cursor } :: rest := by
    rw [active, hcurrent, hbelow]
  rcases Nat.lt_or_ge newer.length (s.surplus m.depth) with hlt | hle
  · -- The block goes, and only blocks that were below it stay.
    refine Or.inr ?_
    have hstay : ∀ old ∈ blk :: rest, old ∈ s₀.below := by
      intro old hold
      obtain ⟨j, hj⟩ := Nat.exists_eq_add_of_lt hlt
      rw [← hdrop, hactive, List.drop_append, List.drop_eq_nil_of_le (by omega), hj,
        show newer.length + j + 1 - newer.length = j + 1 by omega, List.drop_succ_cons] at hold
      exact List.mem_of_mem_drop hold
    have hgone : ∀ old ∈ blk :: rest,
        old.serial ≠ s₀.current.serial ∧ old.region ≠ s₀.current.region := by
      intro old hold
      have hlt := hordered.serial_lt hactive (hstay old hold)
      refine ⟨Nat.ne_of_lt hlt, ?_⟩
      intro hregion
      have hsame : old = { s₀.current with cursor } := by
        refine hl.eq_of_region_eq ?_ ?_ hregion
        · rw [hactive]
          exact List.mem_append_right _ (List.mem_cons_of_mem _ (hstay old hold))
        · rw [hactive]
          exact List.mem_append_cons_self
      rw [hsame] at hlt
      exact Nat.lt_irrefl _ hlt
    intro old hold
    rw [hactive'] at hold
    rcases List.mem_cons.1 hold with rfl | hrest
    · exact hgone blk List.mem_cons_self
    · exact hgone old (List.mem_cons_of_mem _ hrest)
  · -- The block stays: it is the one that turns, or a block above it turns.
    refine Or.inl ?_
    rw [hactive, List.drop_append_of_le_length hle] at hdrop
    cases hleft : newer.drop (s.surplus m.depth) with
    | nil =>
      rw [hleft] at hdrop
      obtain ⟨hblk, hrest⟩ := List.cons.inj hdrop
      exact ⟨[], min m.offset blk.cursor, by rw [hactive', ← hblk, ← hrest]; rfl⟩
    | cons top left =>
      rw [hleft] at hdrop
      obtain ⟨-, hrest⟩ := List.cons.inj hdrop
      exact ⟨{ blk with cursor := min m.offset blk.cursor } :: left, cursor,
        by rw [hactive', ← hrest]; rfl⟩

/-- **A change leaves the stack above, or nothing of the block is left.** -/
theorem Change.above {known : Marker → Prop} (ha : Above s₀ s) (hordered : s.Ordered)
    (hl : Lodged h.memory s) (hchange : Change p known s h s' h') : Above s₀ s' ∨
      ∀ blk ∈ s'.active, blk.serial ≠ s₀.current.serial ∧ blk.region ≠ s₀.current.region := by
  cases hchange with
  | still => exact Or.inl ha
  | served hserves => exact Or.inl (hserves.above ha)
  | @unwound m hknown hok => exact unwound_above m ha hordered hl
  | shrunk => exact Or.inl ha

/-- **What has expired stays expired.** -/
theorem Shift.expired {serial : Nat} (hshift : Shift s s') (he : Expired serial s) :
    Expired serial s' := by
  induction hshift with
  | @turn s s' cursor hid hnext hactive =>
    refine ⟨by rw [hnext]; exact he.1, ?_⟩
    intro blk hblk
    rw [hactive] at hblk
    rcases List.mem_cons.1 hblk with rfl | hold
    · exact he.2 s.current s.current_mem_active
    · exact he.2 blk (List.mem_cons_of_mem _ hold)
  | @push s s' blk hid hnext hserial hactive =>
    have hlt := he.1
    refine ⟨by omega, ?_⟩
    intro old hold
    rw [hactive] at hold
    rcases List.mem_cons.1 hold with rfl | hold
    · omega
    · exact he.2 old hold
  | shed front hid hnext hactive =>
    refine ⟨Nat.lt_of_lt_of_le he.1 hnext, ?_⟩
    intro blk hblk
    exact he.2 blk (by rw [hactive]; exact List.mem_append_right _ hblk)
  | trans hfirst hsecond ihfirst ihsecond => exact ihsecond (ihfirst he)

/-! ## What the checks say of a marker captured on `s₀` -/

/-- Above `s₀` the marker fits as long as the cursor of its block is not before the offset. -/
theorem fits_of_above {newer : List Block} {cursor : Nat} (hid : s.id = s₀.id)
    (hactive : s.active = newer ++ { s₀.current with cursor } :: s₀.below)
    (hcursor : s₀.current.cursor ≤ cursor) : s.Fits s₀.top :=
  ⟨hid.symm, newer, _, s₀.below, hactive, rfl, rfl, hcursor⟩

/-- A marker that fits stands for a block that is active, with its cursor not before the offset. -/
theorem Fits.cursor_le (hordered : s.Ordered) (hfits : s.Fits s₀.top) {newer : List Block}
    {cursor : Nat} (hactive : s.active = newer ++ { s₀.current with cursor } :: s₀.below) :
    s₀.current.cursor ≤ cursor := by
  obtain ⟨-, newer', blk, older, hsplit, -, hserial, hoffset⟩ := hfits
  obtain ⟨-, hblk, -⟩ := hordered.split_unique hsplit hactive hserial
  rw [hblk] at hoffset
  exact hoffset

/-- An expired marker does not fit. -/
theorem Expired.not_fits (he : Expired s₀.current.serial s) : ¬s.Fits s₀.top := by
  rintro ⟨-, newer, blk, older, hsplit, -, hserial, -⟩
  refine he.2 blk ?_ hserial
  rw [hsplit]
  exact List.mem_append_cons_self

/-- Above `s₀`, with the cursor of its block not before where it was, no fewer bytes are reserved:
    all those in the newer blocks are more, and those that the cursor has passed since. -/
theorem reserved_of_above {newer : List Block} {cursor : Nat}
    (hactive : s.active = newer ++ { s₀.current with cursor } :: s₀.below)
    (hcursor : s₀.current.cursor ≤ cursor) : s.reserved
      = s₀.reserved + ((newer.map Block.cursor).sum + (cursor - s₀.current.cursor)) := by
  have hreserved : s.reserved = (newer.map Block.cursor).sum +
      (cursor + (s₀.below.map Block.cursor).sum) := by
    rw [reserved, hactive, List.map_append, List.sum_append, List.map_cons, List.sum_cons]
  have hreserved₀ : s₀.reserved = s₀.current.cursor + (s₀.below.map Block.cursor).sum := by
    rw [reserved, active, List.map_cons, List.sum_cons]
  omega

theorem blockCount_of_above {newer : List Block} {cursor : Nat}
    (hactive : s.active = newer ++ { s₀.current with cursor } :: s₀.below) :
    s.blockCount = s₀.blockCount + newer.length := by
  have hlength := congrArg List.length hactive
  simp only [active, List.length_append, List.length_cons] at hlength
  unfold blockCount
  omega

/-- The books balance, so the count of a marker that fits is never ahead. -/
theorem count_le_of_above (hb₀ : s₀.Balanced) (hb : s.Balanced) {newer : List Block}
    {cursor : Nat} (hactive : s.active = newer ++ { s₀.current with cursor } :: s₀.below)
    (hcursor : s₀.current.cursor ≤ cursor) : s₀.top.outstanding ≤ s.outstanding := by
  show s₀.outstanding ≤ s.outstanding
  rw [hb₀, hb, reserved_of_above hactive hcursor]
  exact Nat.le_add_right _ _

/-- An accepted unwind to a marker captured on `s₀` leads back to the blocks of `s₀`. -/
theorem unwound_of_above {newer : List Block} {cursor : Nat}
    (hactive : s.active = newer ++ { s₀.current with cursor } :: s₀.below)
    (hcursor : s₀.current.cursor ≤ cursor) :
    (s.unwound s₀.top).current = s₀.current ∧ (s.unwound s₀.top).below = s₀.below := by
  obtain ⟨hcurrent, hbelow⟩ := unwound_of_split (m := s₀.top) hactive rfl
  refine ⟨?_, hbelow⟩
  rw [hcurrent]
  show { s₀.current with cursor := min s₀.current.cursor cursor } = s₀.current
  rw [Nat.min_eq_left hcursor]

/-- The block of a marker, above the stack that it was captured on, by its region. -/
theorem cursor_lt_iff (hl : Lodged h.memory s) {newer : List Block} {cursor : Nat}
    (hactive : s.active = newer ++ { s₀.current with cursor } :: s₀.below) :
    (∃ blk ∈ s.active, blk.region = s₀.current.region ∧ blk.cursor < s₀.current.cursor) ↔
      cursor < s₀.current.cursor := by
  have hmem : { s₀.current with cursor } ∈ s.active := by
    rw [hactive]
    exact List.mem_append_cons_self
  constructor
  · rintro ⟨blk, hblk, hregion, hlt⟩
    rw [hl.eq_of_region_eq hblk hmem hregion] at hlt
    exact hlt
  · intro hlt
    exact ⟨_, hmem, rfl, hlt⟩

/-- A position is known by the identity, the active blocks and the outstanding bytes. -/
theorem top_eq (hid : s'.id = s.id) (hcurrent : s'.current = s.current)
    (hbelow : s'.below = s.below) (hout : s'.outstanding = s.outstanding) : s'.top = s.top := by
  rw [top, top, blockCount, blockCount, hid, hcurrent, hbelow, hout]

end Stack

/-! ## Following a stack through a run -/

namespace World

open Stack

/-- `Follows k s₀ w`: the world comes after one in which slot `k` had the stack `s₀`. -/
structure Follows (k : Nat) (s₀ : Stack) (w : World) : Prop where
  slot_lt : k < w.slots.length
  issued : s₀.id.value ≤ w.host.lastId
  own : ∀ t, w.at? k = some t → t.stack.id = s₀.id
  foreign : ∀ i t, w.at? i = some t → i ≠ k → t.stack.id ≠ s₀.id
  fate : ∀ t, w.at? k = some t → Above s₀ t.stack ∨ Expired s₀.current.serial t.stack

variable {p : Platform} {gap n k : Nat} {s₀ : Stack} {w : World}

theorem Follows.start (hw : w.Sound gap) {t : Tenancy} (hat : w.at? k = some t) :
    Follows k t.stack w := by
  refine ⟨lt_of_at? hat, hw.counted k t hat, ?_, ?_, ?_⟩
  · intro u hu
    rw [hat] at hu
    rw [← Option.some.inj hu]
  · intro i u hu hne
    exact hw.distinct i k u t hu hat hne
  · intro u hu
    rw [hat] at hu
    rw [← Option.some.inj hu]
    exact Or.inl (Above.refl t.stack)

/-- In a debug build every operation shifts the stack that it is made on. -/
theorem act_shift (hp : p.Sound gap) (hdebug : p.build = .debug) (hw : w.Sound gap) {t : Tenancy}
    (hat : w.at? k = some t) (op : Op) :
    Shift t.stack (t.act p w.markers w.host op).1.stack :=
  (Tenancy.act_change hp (hw.settled k t hat) w.markers op).shift (Or.inl hdebug)

/-- An operation leaves a stack above `s₀`, or nothing of the block is left. -/
theorem act_above (hp : p.Sound gap) (hw : w.Sound gap) (ha : w.Account n) {t : Tenancy}
    (hat : w.at? k = some t) (op : Op) (habove : Above s₀ t.stack) :
    Above s₀ (t.act p w.markers w.host op).1.stack ∨
      ∀ blk ∈ (t.act p w.markers w.host op).1.stack.active,
        blk.serial ≠ s₀.current.serial ∧ blk.region ≠ s₀.current.region :=
  (Tenancy.act_change hp (hw.settled k t hat) w.markers op).above habove (ha.ordered k t hat)
    (hw.settled k t hat).lodged

/-- A call leaves a world behind `s₀`. -/
theorem Follows.step (hp : p.Sound gap) (hdebug : p.build = .debug) (hw : w.Sound gap)
    (ha : w.Account n) (hf : Follows k s₀ w) (c : Call) : Follows k s₀ (w.step p c) := by
  have hid : ∀ {i t'}, i < w.slots.length → (w.step p c).at? i = some t' →
      ∃ t, w.at? i = some t ∧ t'.stack.id = t.stack.id := by
    intro i t' hlt hat'
    obtain ⟨t, hat, rfl | ⟨op, -, rfl⟩⟩ := step_at? hlt hat'
    · exact ⟨t', hat, rfl⟩
    · exact ⟨t, hat, (act_moves hp hw hat op).id_eq⟩
  refine ⟨Nat.lt_of_lt_of_le hf.slot_lt (length_slots_step p w c),
    Nat.le_trans hf.issued (lastId_step hp hw c), ?_, ?_, ?_⟩
  · intro t' hat'
    obtain ⟨t, hat, heq⟩ := hid hf.slot_lt hat'
    rw [heq]
    exact hf.own t hat
  · intro i t' hat' hne
    rcases Nat.lt_or_ge i w.slots.length with hlt | hge
    · obtain ⟨t, hat, heq⟩ := hid hlt hat'
      rw [heq]
      exact hf.foreign i t hat hne
    · -- A stack in a new slot is under a new identity, and that of `s₀` is an old one.
      intro heq
      have hnew := step_new hge hat'
      have hold := hf.issued
      rw [heq] at hnew
      omega
  · intro t' hat'
    obtain ⟨t, hat, rfl | ⟨op, -, rfl⟩⟩ := step_at? hf.slot_lt hat'
    · exact hf.fate t' hat
    · have hshift := act_shift hp hdebug hw hat op
      rcases hf.fate t hat with hstands | hexpired
      · rcases act_above hp hw ha hat op hstands with hstill | hgone
        · exact Or.inl hstill
        · obtain ⟨blk, hblk, hserial, -⟩ := hstands.mem
          have hlt := (ha.ordered k t hat).below_next blk hblk
          have hmono := hshift.nextSerial_mono
          exact Or.inr ⟨by omega, fun old hold => (hgone old hold).1⟩
      · exact Or.inr (hshift.expired hexpired)

/-- `Released p w cs k region`: at some point of the run no active block of the stack in slot `k`
    has the region. -/
def Released (p : Platform) (w : World) (cs : List Call) (k region : Nat) : Prop :=
  ∃ es, es <+: cs ∧ ∃ t, (run p w es).at? k = some t ∧
    ∀ blk ∈ t.stack.active, blk.region ≠ region

section

variable (hp : p.Sound gap) (hdebug : p.build = .debug) (hw : Reachable p w)

include hp hdebug hw

theorem Follows.run (hf : Follows k s₀ w) (cs : List Call) : Follows k s₀ (w.run p cs) := by
  induction cs using List.reverseRecOn with
  | nil => exact hf
  | append_singleton cs c ih =>
    obtain ⟨n, haccount⟩ := (hw.run cs).account hp hdebug
    rw [run_concat]
    exact ih.step hp hdebug ((hw.run cs).sound hp) haccount c

/-- A marker that has expired by some point of a run has expired at its end. -/
theorem expired_run {serial : Nat} {t : Tenancy} (hat : w.at? k = some t)
    (he : Expired serial t.stack) {cs : List Call} {t' : Tenancy}
    (hat' : (w.run p cs).at? k = some t') : Expired serial t'.stack := by
  have hf := Follows.start (hw.sound hp) hat
  induction cs using List.reverseRecOn generalizing t' with
  | nil =>
    obtain rfl := Option.some.inj (hat.symm.trans hat')
    exact he
  | append_singleton cs c ih =>
    have hlt := (hf.run hp hdebug hw cs).slot_lt
    rw [run_concat] at hat'
    obtain ⟨u, hu, rfl | ⟨op, -, rfl⟩⟩ := step_at? hlt hat'
    · exact ih hu
    · exact (act_shift hp hdebug ((hw.run cs).sound hp) hu op).expired (ih hu)

/-- **A block goes out of use by its release, and by nothing else.**  The block is the current one
    of `s₀`, which the stack stands above at the start of the run. -/
theorem Follows.released_iff (hf : Follows k s₀ w) {t₀ : Tenancy} (hat₀ : w.at? k = some t₀)
    (habove : Above s₀ t₀.stack) {cs : List Call} {t : Tenancy}
    (hat : (w.run p cs).at? k = some t) :
    Released p w cs k s₀.current.region ↔ Expired s₀.current.serial t.stack := by
  constructor
  · rintro ⟨es, ⟨rest, rfl⟩, u, hu, hgone⟩
    have hexpired : Expired s₀.current.serial u.stack := by
      rcases (hf.run hp hdebug hw es).fate u hu with hstands | hexpired
      · obtain ⟨blk, hblk, -, hregion⟩ := hstands.mem
        exact absurd hregion (hgone blk hblk)
      · exact hexpired
    rw [run_append] at hat
    exact expired_run hp hdebug (hw.run es) hu hexpired hat
  · intro hexpired
    induction cs using List.reverseRecOn generalizing t with
    | nil =>
      obtain rfl := Option.some.inj (hat₀.symm.trans hat)
      exact absurd hexpired habove.not_expired
    | append_singleton cs c ih =>
      -- The block was released at the last call, or it was out of use before.
      obtain ⟨n, haccount⟩ := (hw.run cs).account hp hdebug
      have hfollows := hf.run hp hdebug hw cs
      have hearlier : ∀ {u}, (w.run p cs).at? k = some u → Expired s₀.current.serial u.stack →
          Released p w (cs ++ [c]) k s₀.current.region := by
        intro u hu he
        obtain ⟨es, hprefix, hreleased⟩ := ih hu he
        exact ⟨es, hprefix.trans (List.prefix_append _ _), hreleased⟩
      have hat' := hat
      rw [run_concat] at hat'
      obtain ⟨u, hu, rfl | ⟨op, -, rfl⟩⟩ := step_at? hfollows.slot_lt hat'
      · exact hearlier hu hexpired
      · rcases hfollows.fate u hu with hstands | he
        · rcases act_above hp ((hw.run cs).sound hp) haccount hu op hstands with hstill | hgone
          · exact absurd hexpired hstill.not_expired
          · exact ⟨cs ++ [c], List.prefix_rfl, _, hat, fun blk hblk => (hgone blk hblk).2⟩
        · exact hearlier hu he

/-- **A marker expires by the release of its block, and by nothing else.** -/
theorem released_iff {t₀ : Tenancy} (hat₀ : w.at? k = some t₀) {cs : List Call} {t : Tenancy}
    (hat : (w.run p cs).at? k = some t) :
    Released p w cs k t₀.stack.current.region ↔
      Expired t₀.stack.current.serial t.stack :=
  (Follows.start (hw.sound hp) hat₀).released_iff hp hdebug hw hat₀ (Above.refl t₀.stack) hat

/-- A marker is either as good as on the day it was captured, or it does not fit any more; and the
    run tells which. -/
theorem verdict {t₀ : Tenancy} (hat₀ : w.at? k = some t₀) {cs : List Call} {i : Nat} {t : Tenancy}
    (hat : (w.run p cs).at? i = some t) :
    (t.stack.Fits t₀.stack.top ∧ t₀.stack.top.outstanding ≤ t.stack.outstanding ∧
      (t.stack.unwound t₀.stack.top).top = t₀.stack.top ∧
      (t.stack.unwound t₀.stack.top).active = t₀.stack.active ∧
      ¬(i ≠ k ∨ Released p w cs k t₀.stack.current.region ∨ ∃ blk ∈ t.stack.active,
        blk.region = t₀.stack.current.region ∧ blk.cursor < t₀.stack.top.offset)) ∨
    (¬t.stack.Fits t₀.stack.top ∧
      (i ≠ k ∨ Released p w cs k t₀.stack.current.region ∨ ∃ blk ∈ t.stack.active,
        blk.region = t₀.stack.current.region ∧ blk.cursor < t₀.stack.top.offset)) := by
  have hf := (Follows.start (hw.sound hp) hat₀).run hp hdebug hw cs
  by_cases hik : i = k
  · subst hik
    have hset := ((hw.run cs).sound hp).settled i t hat
    obtain ⟨n₀, haccount₀⟩ := hw.account hp hdebug
    obtain ⟨n, haccount⟩ := (hw.run cs).account hp hdebug
    rcases hf.fate t hat with habove | hexpired
    · obtain ⟨newer, cursor, hactive⟩ := habove
      have hreleased : ¬Released p w cs i t₀.stack.current.region := fun hreleased =>
        Above.not_expired ⟨newer, cursor, hactive⟩
          ((released_iff hp hdebug hw hat₀ hat).1 hreleased)
      have hbehind := cursor_lt_iff hset.lodged hactive
      -- The block is still there, and all turns on its cursor.
      rcases Nat.lt_or_ge cursor t₀.stack.current.cursor with hlt | hge
      · refine Or.inr ⟨?_, Or.inr (Or.inr (hbehind.2 hlt))⟩
        intro hfits
        have hle := hfits.cursor_le (haccount.ordered i t hat) hactive
        omega
      · have hid := hf.own t hat
        have hcount := count_le_of_above (haccount₀.balanced i t₀ hat₀)
          (haccount.balanced i t hat) hactive hge
        obtain ⟨hcurrent, hbelow⟩ := unwound_of_above hactive hge
        have hsame : (t.stack.unwound t₀.stack.top).id = t₀.stack.id := by
          rw [← hid]
          exact (unwound_moves hset).id_eq
        have hback : (t.stack.unwound t₀.stack.top).active = t₀.stack.active := by
          rw [active, active, hcurrent, hbelow]
        refine Or.inl ⟨fits_of_above hid hactive hge, hcount, ?_, hback, ?_⟩
        · exact top_eq hsame hcurrent hbelow (Nat.min_eq_left hcount)
        · rintro (hne | hgone | hlt)
          · exact hne rfl
          · exact hreleased hgone
          · exact absurd (hbehind.1 hlt) (Nat.not_lt.2 hge)
    · exact Or.inr ⟨hexpired.not_fits,
        Or.inr (Or.inl ((released_iff hp hdebug hw hat₀ hat).2 hexpired))⟩
  · refine Or.inr ⟨?_, Or.inl hik⟩
    rintro ⟨hstack, -⟩
    exact hf.foreign i t hat hik hstack.symm

/-- **Which markers are accepted, and where they lead.**  In a debug build, an unwind to a marker
    that was captured earlier in the run stops just when the marker is of another stack, or its
    block was released in between, or the cursor of that block is now before its offset.  When it
    stops, the state is what it was, and the count of the marker is never the reason.  When it does
    not, the stack is back at the marker in every respect, with the active blocks as they were. -/
theorem unwind_exact {t₀ : Tenancy} (hat₀ : w.at? k = some t₀) {cs : List Call} {i : Nat}
    {t : Tenancy} (hat : (w.run p cs).at? i = some t) :
    ((∃ f st, Stack.unwind p t₀.stack.top (t.stack, (w.run p cs).host) = .error f st) ↔
      i ≠ k ∨ Released p w cs k t₀.stack.current.region ∨ ∃ blk ∈ t.stack.active,
        blk.region = t₀.stack.current.region ∧ blk.cursor < t₀.stack.top.offset) ∧
    (∀ f st, Stack.unwind p t₀.stack.top (t.stack, (w.run p cs).host) = .error f st →
      st = (t.stack, (w.run p cs).host) ∧ ∀ a b, f ≠ .outstandingForward a b) ∧
    ∀ s' h', Stack.unwind p t₀.stack.top (t.stack, (w.run p cs).host) = .ok () (s', h') →
      s'.top = t₀.stack.top ∧ s'.blockCount = t₀.stack.top.depth ∧
        s'.active = t₀.stack.active := by
  have hs := (((hw.run cs).sound hp).settled i t hat).wellFormed
  rcases verdict hp hdebug hw hat₀ hat with ⟨hfits, hcount, htop, hactive, hgood⟩ | ⟨hfits, hbad⟩
  · have hrun := unwind_of_accepted (w.run p cs).host hs
      (Or.inr (objection?_eq_none_iff.2 ⟨hfits, hcount⟩) :
        p.build = .release ∨ t.stack.objection? t₀.stack.top = none)
    rw [hrun]
    refine ⟨⟨?_, fun hcond => absurd hcond hgood⟩, by nofun, ?_⟩
    · rintro ⟨f, st, hstop⟩
      nomatch hstop
    · intro s' h' hdone
      cases hdone
      exact ⟨htop, congrArg Marker.depth htop, hactive⟩
  · obtain ⟨f, hobjection, hreason⟩ := objection?_of_not_fits hfits
    have hrun := unwind_of_objection (w.run p cs).host hdebug hobjection
    rw [hrun]
    refine ⟨⟨fun _ => hbad, fun _ => ⟨f, _, rfl⟩⟩, ?_, by nofun⟩
    intro f' st hstop
    cases hstop
    exact ⟨rfl, hreason⟩

end

/-- A stack with a second block, which a request has brought. -/
def twoBlocks : World := run (Session.platform .debug []) initial
  [.make (.sized .debug 64), .on 0 (.allocate .plain ⟨100, 1⟩)]

/-- Calls that release the second block and bring it again, out of the cache. -/
def goneAndBack : List Call := [.on 0 .unwindAll, .on 0 (.allocate .plain ⟨100, 1⟩)]

/-- A marker of a block that was released does not come back with the region of the block: the block
    that is reused in its place, at the same depth, is another one. -/
theorem unwind_exact_reused :
    ∃ t₀ t f st, twoBlocks.at? 0 = some t₀ ∧
      (twoBlocks.run (Session.platform .debug []) goneAndBack).at? 0 = some t ∧
      (t.stack.current.region, t.stack.blockCount)
        = (t₀.stack.current.region, t₀.stack.blockCount) ∧
      Stack.unwind (Session.platform .debug []) t₀.stack.top (t.stack,
        (twoBlocks.run (Session.platform .debug []) goneAndBack).host) = .error f st := by
  have hp : (Session.platform .debug []).Sound 1 :=
    Session.platform_sound .debug (by nofun) (by decide)
  have hstart : (twoBlocks.at? 0).map
      (fun t => (t.stack.current.region, t.stack.blockCount)) = some (1, 2) := by decide +kernel
  have hbetween : ((twoBlocks.run (Session.platform .debug []) [.on 0 .unwindAll]).at? 0).map
      (fun t => t.stack.active.map Block.region) = some [0] := by decide +kernel
  have hend : ((twoBlocks.run (Session.platform .debug []) goneAndBack).at? 0).map
      (fun t => (t.stack.current.region, t.stack.blockCount)) = some (1, 2) := by decide +kernel
  obtain ⟨t₀, hat₀, hplace₀⟩ := Option.map_eq_some_iff.1 hstart
  obtain ⟨u, hu, hregions⟩ := Option.map_eq_some_iff.1 hbetween
  obtain ⟨t, hat, hplace⟩ := Option.map_eq_some_iff.1 hend
  have hreleased : Released (Session.platform .debug []) twoBlocks goneAndBack 0
      t₀.stack.current.region := by
    refine ⟨[.on 0 .unwindAll], ⟨_, rfl⟩, u, hu, ?_⟩
    intro blk hblk
    have hzero := List.mem_map_of_mem (f := Block.region) hblk
    rw [hregions, List.mem_singleton] at hzero
    rw [hzero, (Prod.mk.inj hplace₀).1]
    exact Nat.zero_ne_one
  obtain ⟨f, st, hstop⟩ := (unwind_exact hp rfl ⟨_, rfl⟩ hat₀ hat).1.2 (Or.inr (Or.inl hreleased))
  exact ⟨t₀, t, f, st, hat₀, hat, hplace.trans hplace₀.symm, hstop⟩

end World

end StackArena
