/-
  How the list of active blocks shifts.

  Seen from a marker, only three things ever happen to a stack: the cursor of the current block
  turns, a block under a new serial is pushed, and blocks are shed from the top.  Every change of a
  stack is made of these (`Change.shift`), as long as the serials have not come to their end.

  1. Serials stay in order (`Ordered`), so a block is known by its serial.
  2. A block that is not current is frozen, and so is what lies below it.  A marker therefore knows,
     for good, the bytes that were reserved below its block (`Knows`): whenever the block is active,
     the count of the marker is its offset and the cursors below.
  3. What the checks of a marker accept, in terms of the list (`objection?_eq_none_iff`).
-/
import StackArena.Proofs.Turns

namespace StackArena.Stack

variable {p : Platform} {gap : Nat} {s s' : Stack} {h h' : Host} {m : Marker}

/-! ## Shifts -/

/-- `Shift s s'`: what can happen to the active blocks and the serials of a stack. -/
inductive Shift : Stack → Stack → Prop
  /-- The cursor of the current block turns. -/
  | turn {s s' : Stack} {cursor : Nat} (hid : s'.id = s.id) (hnext : s'.nextSerial = s.nextSerial)
      (hactive : s'.active = { s.current with cursor } :: s.below) : Shift s s'
  /-- A block under a new serial is pushed. -/
  | push {s s' : Stack} {blk : Block} (hid : s'.id = s.id)
      (hnext : s'.nextSerial = s.nextSerial + 1) (hserial : blk.serial = s.nextSerial)
      (hactive : s'.active = blk :: s.active) : Shift s s'
  /-- Blocks are shed from the top, or none at all. -/
  | shed {s s' : Stack} (front : List Block) (hid : s'.id = s.id)
      (hnext : s.nextSerial ≤ s'.nextSerial) (hactive : s.active = front ++ s'.active) : Shift s s'
  | trans {s₁ s₂ s₃ : Stack} (hfirst : Shift s₁ s₂) (hsecond : Shift s₂ s₃) : Shift s₁ s₃

theorem Shift.refl (s : Stack) : Shift s s := .shed [] rfl (Nat.le_refl _) rfl

/-- Serials are never given back. -/
theorem Shift.nextSerial_mono (hshift : Shift s s') : s.nextSerial ≤ s'.nextSerial := by
  induction hshift with
  | turn hid hnext hactive => exact Nat.le_of_eq hnext.symm
  | push hid hnext hserial hactive => omega
  | shed front hid hnext hactive => exact hnext
  | trans hfirst hsecond ihfirst ihsecond => exact Nat.le_trans ihfirst ihsecond

/-- A new serial is one more, unless the serials have come to their end. -/
theorem nextSerial_eq {n : Nat} (hroom : p.build = .debug ∨ s.nextSerial + 1 < Word.count)
    (hserial : p.build.add s.nextSerial 1 = .ok n) : n = s.nextSerial + 1 := by
  rcases Build.add_eq_ok hserial with ⟨-, heq⟩ | ⟨hrelease, hfull⟩
  · exact heq
  · rcases hroom with hdebug | hlt
    · exact absurd hrelease (Build.eq_debug_iff.1 hdebug)
    · omega

theorem Bump.shift {r : Request} {out : Except Fault (Option Nat)}
    (hbump : Bump p r s h (out, s', h')) : Shift s s' := by
  cases hbump with
  | declined => exact Shift.refl s
  | overdrawn => exact .turn rfl rfl rfl
  | served => exact .turn rfl rfl rfl

theorem Grow.shift {required : Nat} {out : Except Fault Unit}
    (hroom : p.build = .debug ∨ s.nextSerial + 1 < Word.count)
    (hgrow : Grow p required s h (out, s', h')) : Shift s s' := by
  cases out with
  | ok u =>
    obtain ⟨blk, others, n, rfl, -, hserial, hnext, -⟩ := hgrow.push_eq
    exact .push rfl (nextSerial_eq hroom hnext) hserial rfl
  | error f =>
    rcases hgrow.of_error with rfl | ⟨n, hnext, rfl⟩
    · exact Shift.refl s'
    · have heq := nextSerial_eq hroom hnext
      exact .shed [] rfl (show s.nextSerial ≤ n by omega) rfl

theorem Serves.shift {r : Request} {out : Except Fault (Option Nat)}
    (hroom : p.build = .debug ∨ s.nextSerial + 1 < Word.count)
    (hserves : Serves p r s h (out, s', h')) : Shift s s' :=
  hserves.keeps (P := fun s' _ => Shift s s') (Shift.refl s) (fun hgrow => hgrow.shift hroom)
    fun hfirst hbump => hfirst.trans hbump.shift

theorem unwound_shift (m : Marker) (s : Stack) : Shift s (s.unwound m) := by
  obtain ⟨current, below, cache, capacity, heq⟩ := dropped_eq (s.surplus m.depth) s
  have hactive := active_dropped (s.surplus_le m.depth)
  have hshed : Shift s (dropped (s.surplus m.depth) s) := by
    refine .shed (s.active.take (s.surplus m.depth)) ?_ ?_ ?_
    · rw [heq]
    · rw [heq]
    · rw [hactive, List.take_append_drop]
  exact hshed.trans (.turn rfl rfl rfl)

/-- **Every change is a shift.** -/
theorem Change.shift {known : Marker → Prop}
    (hroom : p.build = .debug ∨ s.nextSerial + 1 < Word.count)
    (hchange : Change p known s h s' h') : Shift s s' := by
  cases hchange with
  | still => exact Shift.refl s
  | served hserves => exact hserves.shift hroom
  | unwound => exact unwound_shift _ s
  | shrunk => exact .shed [] rfl (Nat.le_refl _) rfl

/-- A growth takes one serial, and nothing else does. -/
theorem Grow.nextSerial_le {required : Nat} {out : Except Fault Unit}
    (hgrow : Grow p required s h (out, s', h')) : s'.nextSerial ≤ s.nextSerial + 1 := by
  cases hgrow with
  | reused hserial hcache => exact Build.add_le hserial
  | made hserial hcache hplace => exact Build.add_le hserial
  | serialsOut => exact Nat.le_succ _
  | noBlock hserial hcache hmake => exact Build.add_le hserial

theorem Bump.nextSerial_eq {r : Request} {out : Except Fault (Option Nat)}
    (hbump : Bump p r s h (out, s', h')) : s'.nextSerial = s.nextSerial := by
  cases hbump <;> rfl

/-- A change takes at most one serial. -/
theorem Change.nextSerial_le {known : Marker → Prop} (hchange : Change p known s h s' h') :
    s'.nextSerial ≤ s.nextSerial + 1 := by
  cases hchange with
  | still => exact Nat.le_succ _
  | served hserves =>
    refine hserves.keeps (P := fun s' _ => s'.nextSerial ≤ s.nextSerial + 1) (Nat.le_succ _)
      (fun hgrow => hgrow.nextSerial_le) ?_
    intro s₁ h₁ out s₂ h₂ hle hbump
    rw [hbump.nextSerial_eq]
    exact hle
  | unwound =>
    rw [nextSerial_unwound]
    exact Nat.le_succ _
  | shrunk => exact Nat.le_succ _

/-! ## Serials in order -/

/-- `Ordered s`: newer blocks have larger serials, and the next serial is larger than all. -/
structure Ordered (s : Stack) : Prop where
  decreasing : s.active.Pairwise fun newer older => older.serial < newer.serial
  below_next : ∀ blk ∈ s.active, blk.serial < s.nextSerial

theorem newborn_ordered (c : Config) (h : Host) (base : Nat) : (newborn c h base).Ordered := by
  refine ⟨List.pairwise_singleton _ _, fun blk hblk => ?_⟩
  rw [List.mem_singleton.1 hblk]
  exact Nat.zero_lt_one

theorem Shift.ordered (hshift : Shift s s') (hs : s.Ordered) : s'.Ordered := by
  induction hshift with
  | @turn s s' cursor hid hnext hactive =>
    obtain ⟨htop, hrest⟩ := List.pairwise_cons.1 hs.decreasing
    constructor
    · rw [hactive]
      exact List.pairwise_cons.2 ⟨htop, hrest⟩
    · intro blk hblk
      rw [hactive] at hblk
      rw [hnext]
      rcases List.mem_cons.1 hblk with rfl | hold
      · exact hs.below_next s.current s.current_mem_active
      · exact hs.below_next blk (List.mem_cons_of_mem _ hold)
  | push hid hnext hserial hactive =>
    constructor
    · rw [hactive]
      refine List.pairwise_cons.2 ⟨?_, hs.decreasing⟩
      intro old hold
      rw [hserial]
      exact hs.below_next old hold
    · intro old hold
      rw [hactive] at hold
      rw [hnext]
      rcases List.mem_cons.1 hold with rfl | hold
      · omega
      · exact Nat.lt_succ_of_lt (hs.below_next old hold)
  | shed front hid hnext hactive =>
    constructor
    · have hdecreasing := hs.decreasing
      rw [hactive] at hdecreasing
      exact (List.pairwise_append.1 hdecreasing).2.1
    · intro blk hblk
      have hmem := hs.below_next blk (by rw [hactive]; exact List.mem_append_right _ hblk)
      omega
  | trans hfirst hsecond ihfirst ihsecond => exact ihsecond (ihfirst hs)

/-- Below a block there is none of its serial. -/
theorem Ordered.serial_lt (hs : s.Ordered) {newer older : List Block} {blk old : Block}
    (hsplit : s.active = newer ++ blk :: older) (hold : old ∈ older) : old.serial < blk.serial := by
  have hdecreasing := hs.decreasing
  rw [hsplit] at hdecreasing
  exact (List.pairwise_cons.1 (List.pairwise_append.1 hdecreasing).2.1).1 old hold

/-- A block is known by its serial: the list splits there in one way only. -/
theorem Ordered.split_unique (hs : s.Ordered) {newer older newer' older' : List Block}
    {blk blk' : Block} (hsplit : s.active = newer ++ blk :: older)
    (hsplit' : s.active = newer' ++ blk' :: older') (hserial : blk.serial = blk'.serial) :
    newer = newer' ∧ blk = blk' ∧ older = older' := by
  -- If the two places differ, one of the blocks lies below the other, with a smaller serial.
  rcases List.append_eq_append_iff.1 (hsplit.symm.trans hsplit') with
    ⟨between, hnewer, htail⟩ | ⟨between, hnewer, htail⟩
  · cases between with
    | nil =>
      obtain ⟨hblk, holder⟩ := List.cons.inj htail
      exact ⟨by rw [hnewer, List.append_nil], hblk, holder⟩
    | cons first between =>
      have hmem : blk' ∈ older := by
        rw [(List.cons.inj htail).2]
        exact List.mem_append_cons_self
      have hlt := hs.serial_lt hsplit hmem
      omega
  · cases between with
    | nil =>
      obtain ⟨hblk, holder⟩ := List.cons.inj htail
      exact ⟨by rw [hnewer, List.append_nil], hblk.symm, holder.symm⟩
    | cons first between =>
      have hmem : blk ∈ older' := by
        rw [(List.cons.inj htail).2]
        exact List.mem_append_cons_self
      have hlt := hs.serial_lt hsplit' hmem
      omega

/-! ## What a marker knows -/

/-- `s.Knows m`: whenever the block of the marker is active, the count of the marker is its offset
    and the cursors below the block.  Of a marker of another stack nothing is asked. -/
def Knows (s : Stack) (m : Marker) : Prop :=
  m.stack = s.id → m.serial < s.nextSerial ∧
    ∀ newer blk older, s.active = newer ++ blk :: older → blk.serial = m.serial →
      m.outstanding = m.offset + (older.map Block.cursor).sum

/-- **What a marker knows stays true.**  What lies below the block of the marker is not touched
    while that block is active, and its serial is not given again. -/
theorem Shift.knows (hshift : Shift s s') (hm : s.Knows m) : s'.Knows m := by
  induction hshift with
  | @turn s s' cursor hid hnext hactive =>
    intro hstack
    obtain ⟨hserial, hbooks⟩ := hm (hstack.trans hid)
    refine ⟨by omega, ?_⟩
    intro newer blk older hsplit hblk
    rw [hactive] at hsplit
    -- The block of the marker is the one that turned, or one below it.
    cases newer with
    | nil =>
      obtain ⟨hcurrent, hbelow⟩ := List.cons.inj hsplit
      rw [← hbelow]
      exact hbooks [] s.current s.below rfl (by rw [← hblk, ← hcurrent])
    | cons top newer =>
      obtain ⟨-, hbelow⟩ := List.cons.inj hsplit
      exact hbooks (s.current :: newer) blk older (by rw [active, hbelow]; rfl) hblk
  | push hid hnext hserial' hactive =>
    intro hstack
    obtain ⟨hserial, hbooks⟩ := hm (hstack.trans hid)
    refine ⟨by omega, ?_⟩
    intro newer blk older hsplit hblk
    rw [hactive] at hsplit
    -- The pushed block is not the one of the marker: its serial is larger.
    cases newer with
    | nil =>
      have heq := (List.cons.inj hsplit).1
      rw [heq] at hserial'
      omega
    | cons top newer => exact hbooks newer blk older (List.cons.inj hsplit).2 hblk
  | shed front hid hnext hactive =>
    intro hstack
    obtain ⟨hserial, hbooks⟩ := hm (hstack.trans hid)
    refine ⟨by omega, ?_⟩
    intro newer blk older hsplit hblk
    refine hbooks (front ++ newer) blk older ?_ hblk
    rw [hactive, hsplit, List.append_assoc]
  | trans hfirst hsecond ihfirst ihsecond => exact ihsecond (ihfirst hm)

/-- A marker that was just captured knows its stack. -/
theorem knows_top (hs : s.Ordered) (hbalanced : s.Balanced) : s.Knows s.top := by
  intro _
  refine ⟨hs.below_next s.current s.current_mem_active, ?_⟩
  intro newer blk older hsplit hblk
  have hself : s.active = [] ++ s.current :: s.below := rfl
  obtain ⟨-, -, holder⟩ := hs.split_unique hsplit hself hblk
  rw [holder]
  show s.outstanding = s.current.cursor + _
  rw [hbalanced, reserved, active, List.map_cons, List.sum_cons]

/-- The bottom of a stack knows it. -/
theorem knows_bottom (hs : s.WellFormed) (hordered : s.Ordered) : s.Knows s.bottom := by
  obtain ⟨newest, oldest, hactive, hbottom⟩ := hs.rooted
  intro _
  rw [hbottom]
  refine ⟨hordered.below_next oldest ?_, ?_⟩
  · rw [hactive]
    exact List.mem_append_cons_self
  · intro newer blk older hsplit hblk
    obtain ⟨-, -, holder⟩ := hordered.split_unique hsplit hactive hblk
    rw [holder]
    rfl

/-! ## What the checks accept -/

/-- The block at a depth has one block less than that below it. -/
theorem blockAt?_eq_some_iff {depth : Nat} {blk : Block} :
    s.blockAt? depth = some blk ↔
      ∃ newer older, s.active = newer ++ blk :: older ∧ older.length + 1 = depth := by
  unfold blockAt?
  constructor
  · intro hat
    by_cases hzero : depth = 0
    · rw [if_pos hzero] at hat
      nomatch hat
    · rw [if_neg hzero] at hat
      -- Depths count from the oldest block, so the list is cut the other way round.
      obtain ⟨hlt, hget⟩ := List.getElem?_eq_some_iff.1 hat
      have hsplit : s.active.reverse = s.active.reverse.take (depth - 1) ++
          blk :: s.active.reverse.drop (depth - 1 + 1) := by
        rw [← hget, ← List.drop_eq_getElem_cons hlt, List.take_append_drop]
      refine ⟨(s.active.reverse.drop (depth - 1 + 1)).reverse,
        (s.active.reverse.take (depth - 1)).reverse, ?_, ?_⟩
      · have hback := congrArg List.reverse hsplit
        rwa [List.reverse_reverse, List.reverse_append, List.reverse_cons,
          List.append_assoc] at hback
      · rw [List.length_reverse, List.length_take]
        omega
  · rintro ⟨newer, older, hsplit, rfl⟩
    rw [if_neg (Nat.succ_ne_zero _), hsplit, List.reverse_append, List.reverse_cons,
      List.append_assoc, Nat.add_sub_cancel, List.getElem?_append_right (by simp),
      List.length_reverse, Nat.sub_self]
    rfl

/-- What the checks of a marker inside a block accept. -/
theorem blockObjection?_eq_none_iff {blk : Block} :
    blockObjection? m blk = none ↔ blk.serial = m.serial ∧ m.offset ≤ blk.cursor := by
  unfold blockObjection?
  by_cases hserial : m.serial = blk.serial
  · rw [if_neg (not_not.2 hserial)]
    by_cases hoffset : blk.cursor < m.offset
    · rw [if_pos hoffset]
      exact ⟨nofun, fun h => absurd h.2 (Nat.not_le.2 hoffset)⟩
    · rw [if_neg hoffset]
      exact ⟨fun _ => ⟨hserial.symm, Nat.not_lt.1 hoffset⟩, fun _ => rfl⟩
  · rw [if_pos hserial]
    exact ⟨nofun, fun h => absurd h.1.symm hserial⟩

/-- `s.Fits m`: the block of the marker is active at its depth, and its cursor is not before the
    offset. -/
def Fits (s : Stack) (m : Marker) : Prop :=
  m.stack = s.id ∧ ∃ newer blk older, s.active = newer ++ blk :: older ∧
    older.length + 1 = m.depth ∧ blk.serial = m.serial ∧ m.offset ≤ blk.cursor

/-- Of a marker that fits only the count is left to check. -/
theorem objection?_of_fits (hfits : s.Fits m) : s.objection? m =
    if s.outstanding < m.outstanding then some (.outstandingForward m.outstanding s.outstanding)
    else none := by
  obtain ⟨hstack, newer, blk, older, hsplit, hdepth, hserial, hoffset⟩ := hfits
  have hat := blockAt?_eq_some_iff.2 ⟨newer, older, hsplit, hdepth⟩
  have hinside := blockObjection?_eq_none_iff.2 ⟨hserial, hoffset⟩
  rw [objection?, if_neg (not_not.2 hstack), hat]
  dsimp only
  rw [hinside]

/-- A marker that does not fit is objected to for another reason than its count. -/
theorem objection?_of_not_fits (hfits : ¬s.Fits m) :
    ∃ f, s.objection? m = some f ∧ ∀ a b, f ≠ .outstandingForward a b := by
  unfold objection?
  by_cases hstack : m.stack = s.id
  · rw [if_neg (not_not.2 hstack)]
    cases hat : s.blockAt? m.depth with
    | none => exact ⟨_, rfl, by nofun⟩
    | some blk =>
      obtain ⟨newer, older, hsplit, hdepth⟩ := blockAt?_eq_some_iff.1 hat
      by_cases hserial : m.serial = blk.serial
      · by_cases hoffset : blk.cursor < m.offset
        · refine ⟨.unwindForward m.offset blk.cursor, ?_, by nofun⟩
          simp only [blockObjection?, if_neg (not_not.2 hserial), if_pos hoffset]
        · exact absurd ⟨hstack, newer, blk, older, hsplit, hdepth, hserial.symm,
            Nat.not_lt.1 hoffset⟩ hfits
      · refine ⟨.staleMarker m.serial blk.serial, ?_, by nofun⟩
        simp only [blockObjection?, if_pos hserial]
  · rw [if_pos hstack]
    exact ⟨_, rfl, by nofun⟩

/-- The checks accept a marker that fits and whose count is not ahead. -/
theorem objection?_eq_none_iff :
    s.objection? m = none ↔ s.Fits m ∧ m.outstanding ≤ s.outstanding := by
  by_cases hfits : s.Fits m
  · rw [objection?_of_fits hfits]
    by_cases hahead : s.outstanding < m.outstanding
    · rw [if_pos hahead]
      exact ⟨nofun, fun h => absurd h.2 (Nat.not_le.2 hahead)⟩
    · rw [if_neg hahead]
      exact ⟨fun _ => ⟨hfits, Nat.not_lt.1 hahead⟩, fun _ => rfl⟩
  · obtain ⟨f, hf, -⟩ := objection?_of_not_fits hfits
    rw [hf]
    exact ⟨nofun, fun h => absurd h.1 hfits⟩

/-- The checks always accept the bottom. -/
theorem bottom_accepted (hs : s.WellFormed) : s.objection? s.bottom = none := by
  obtain ⟨newest, oldest, hactive, hbottom⟩ := hs.rooted
  rw [objection?_eq_none_iff, hbottom]
  exact ⟨⟨rfl, newest, oldest, [], hactive, rfl, rfl, Nat.zero_le _⟩, Nat.zero_le _⟩

/-- What an unwind to a depth drops lies above the block at that depth. -/
theorem surplus_of_split {newer older : List Block} {blk : Block}
    (hsplit : s.active = newer ++ blk :: older) (hdepth : older.length + 1 = m.depth) :
    s.surplus m.depth = newer.length := by
  have hlength := congrArg List.length hsplit
  rw [List.length_append, List.length_cons, active, List.length_cons] at hlength
  unfold surplus keptDepth blockCount
  omega

/-- An unwind to a marker whose block is at its depth ends in that block. -/
theorem unwound_of_split {newer older : List Block} {blk : Block}
    (hsplit : s.active = newer ++ blk :: older) (hdepth : older.length + 1 = m.depth) :
    (s.unwound m).current = { blk with cursor := min m.offset blk.cursor } ∧
      (s.unwound m).below = older := by
  obtain ⟨blk', rest, hdrop, hcurrent, hbelow⟩ := s.active_unwound m
  rw [surplus_of_split hsplit hdepth, hsplit, List.drop_left] at hdrop
  obtain ⟨rfl, rfl⟩ := List.cons.inj hdrop
  exact ⟨hcurrent, hbelow⟩

end StackArena.Stack
