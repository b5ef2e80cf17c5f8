/-
  Standing on what was there.

  From the opening of a guard on the stack stands on what it was then (`Stands`): the block that was
  current is active on the blocks that lay below it, and its cursor has not moved back.  A marker
  that was captured since lies at that position or beyond (`Precedes`), so an unwind to it leaves
  the stack standing there; the position itself is accepted all the time, and an unwind to it leads
  back (`Stands.unwind_top`).
-/
import StackArena.Proofs.Cutting

namespace StackArena

namespace Stack

variable {p : Platform} {gap : Nat} {s₀ s s' : Stack} {h h' : Host} {m : Marker}

/-! ## Standing on what was there -/

/-- `RestsOn s₀ s`: the current block of `s₀` is active in `s`, on the same blocks as in `s₀`, and
    its cursor has not moved back. -/
def RestsOn (s₀ s : Stack) : Prop :=
  ∃ newer cursor, s.active = newer ++ { s₀.current with cursor } :: s₀.below ∧
    s₀.current.cursor ≤ cursor

/-- `s₀.Precedes m`: the marker lies at the position of `s₀` or beyond. -/
def Precedes (s₀ : Stack) (m : Marker) : Prop :=
  s₀.blockCount < m.depth ∨ (m.depth = s₀.blockCount ∧ s₀.current.cursor ≤ m.offset)

theorem RestsOn.refl (s : Stack) : RestsOn s s := ⟨[], s.current.cursor, rfl, Nat.le_refl _⟩

/-- The position of a stack that stands on `s₀` lies at that of `s₀` or beyond. -/
theorem RestsOn.precedes_top (hrests : RestsOn s₀ s) : s₀.Precedes s.top := by
  obtain ⟨newer, cursor, hactive, hcursor⟩ := hrests
  have hcount := blockCount_of_above hactive
  show s₀.blockCount < s.blockCount ∨
    (s.blockCount = s₀.blockCount ∧ s₀.current.cursor ≤ s.current.cursor)
  cases newer with
  | nil =>
    have hcurrent := (List.cons.inj hactive).1
    refine Or.inr ⟨hcount, ?_⟩
    rw [hcurrent]
    exact hcursor
  | cons top newer =>
    rw [List.length_cons] at hcount
    exact Or.inl (by omega)

/-- A request leaves a stack standing: no cursor moves back. -/
theorem Serves.restsOn {r : Request} {out : Except Fault (Option Nat)} (hp : p.Sound gap)
    (hset : Settled gap s h) (hrests : RestsOn s₀ s) (hserves : Serves p r s h (out, s', h')) :
    RestsOn s₀ s' := by
  obtain ⟨newer, cursor, hactive, hcursor⟩ := hrests
  obtain ⟨newer', cursor', hactive'⟩ := hserves.above ⟨newer, cursor, hactive⟩
  have hmem : { s₀.current with cursor } ∈ s.active := by
    rw [hactive]
    exact List.mem_append_cons_self
  have hmem' : { s₀.current with cursor := cursor' } ∈ s'.active := by
    rw [hactive']
    exact List.mem_append_cons_self
  obtain ⟨blk, hblk, hregion, -, hle⟩ := hserves.carries _ hmem
  have hsame := (hserves.moves hp hset).settled.lodged.eq_of_region_eq hblk hmem' hregion
  refine ⟨newer', cursor', hactive', Nat.le_trans hcursor ?_⟩
  rw [hsame] at hle
  exact hle

/-- **An accepted unwind to a marker beyond `s₀` leaves the stack standing on `s₀`.**  The block of
    the marker lies above the block that was current, or it is that block itself. -/
theorem unwound_restsOn (hrests : RestsOn s₀ s) (hbeyond : s₀.Precedes m)
    (hok : s.objection? m = none) : RestsOn s₀ (s.unwound m) := by
  obtain ⟨newer, cursor, hactive, hcursor⟩ := hrests
  obtain ⟨⟨-, front, blk, older, hsplit, hdepth, -, hoffset⟩, -⟩ := objection?_eq_none_iff.1 hok
  obtain ⟨hcurrent, hbelow⟩ := unwound_of_split hsplit hdepth
  have hunwound : (s.unwound m).active
      = { blk with cursor := min m.offset blk.cursor } :: older := by
    rw [active, hcurrent, hbelow]
  have hcount : s₀.blockCount = s₀.below.length + 1 := rfl
  rcases List.append_eq_append_iff.1 (hsplit.symm.trans hactive) with
    ⟨between, -, htail⟩ | ⟨between, -, htail⟩
  · cases between with
    | nil =>
      -- The marker is of the block itself: its offset is not before the old cursor.
      obtain ⟨hblk, holder⟩ := List.cons.inj htail
      have hfar : s₀.current.cursor ≤ m.offset := by
        rcases hbeyond with hdeep | ⟨-, hfar⟩
        · rw [holder] at hdepth
          omega
        · exact hfar
      refine ⟨[], min m.offset cursor, ?_, Nat.le_min.2 ⟨hfar, hcursor⟩⟩
      rw [hunwound, hblk, holder]
      rfl
    | cons first between =>
      obtain ⟨-, holder⟩ := List.cons.inj htail
      refine ⟨{ blk with cursor := min m.offset blk.cursor } :: between, cursor, ?_, hcursor⟩
      rw [hunwound, holder]
      rfl
  · cases between with
    | nil =>
      obtain ⟨hblk, holder⟩ := List.cons.inj htail
      have hfar : s₀.current.cursor ≤ m.offset := by
        rcases hbeyond with hdeep | ⟨-, hfar⟩
        · rw [← holder] at hdepth
          omega
        · exact hfar
      refine ⟨[], min m.offset cursor, ?_, Nat.le_min.2 ⟨hfar, hcursor⟩⟩
      rw [hunwound, ← hblk, ← holder]
      rfl
    | cons first between =>
      -- A marker of a block further down does not lie beyond.
      have hlength : s₀.below.length = (between ++ blk :: older).length :=
        congrArg List.length (List.cons.inj htail).2
      rw [List.length_append, List.length_cons] at hlength
      rcases hbeyond with hdeep | ⟨hsame, -⟩
      · omega
      · omega

/-- `Upright gap s h`: a settled stack with its serials in order and its books balanced. -/
structure Upright (gap : Nat) (s : Stack) (h : Host) : Prop where
  settled : Settled gap s h
  ordered : s.Ordered
  balanced : s.Balanced

/-- `Stands gap s₀ s h`: an upright stack, under the identity of `s₀`, that stands on `s₀`. -/
structure Stands (gap : Nat) (s₀ s : Stack) (h : Host) : Prop extends Upright gap s h where
  id_eq : s.id = s₀.id
  rests : RestsOn s₀ s

theorem Upright.stands (hup : Upright gap s h) : Stands gap s s h := ⟨hup, rfl, .refl s⟩

/-- The position of an upright stack, as a marker. -/
theorem Upright.knows_top (hup : Upright gap s h) : s.Knows s.top :=
  Stack.knows_top hup.ordered hup.balanced

/-- A change leaves the stack standing, if the markers that it may unwind to lie beyond `s₀`. -/
theorem Change.stands (hp : p.Sound gap) (hdebug : p.build = .debug) {known : Marker → Prop}
    (hknown : ∀ m, known m → s.Knows m ∧ s₀.Precedes m) (hstands : Stands gap s₀ s h)
    (hchange : Change p known s h s' h') : Stands gap s₀ s' h' := by
  have hmoves := hchange.moves hp hstands.settled
  have hordered := (hchange.shift (Or.inl hdebug)).ordered hstands.ordered
  have hbalanced := hchange.balanced hp hstands.settled hstands.balanced
    (fun m hm => (hknown m hm).1) fun m _ => Or.inl hdebug
  refine ⟨⟨hmoves.settled, hordered, hbalanced⟩, hmoves.id_eq.trans hstands.id_eq, ?_⟩
  cases hchange with
  | still => exact hstands.rests
  | served hserves => exact hserves.restsOn hp hstands.settled hstands.rests
  | @unwound m hm hok =>
    have hnone := hok.resolve_left (Build.eq_debug_iff.1 hdebug)
    exact unwound_restsOn hstands.rests (hknown m hm).2 hnone
  | shrunk => exact hstands.rests

/-- **Where the stack stands on `s₀`, the position of `s₀` is accepted, and the unwind leads
    back.** -/
theorem Stands.unwind_top (hstands : Stands gap s₀ s h) (hb₀ : s₀.Balanced) :
    ∃ s' h', Stack.unwind p s₀.top (s, h) = .ok () (s', h') ∧ s'.top = s₀.top ∧
      s'.active = s₀.active := by
  obtain ⟨newer, cursor, hactive, hcursor⟩ := hstands.rests
  have hcount := count_le_of_above hb₀ hstands.balanced hactive hcursor
  have hfits := fits_of_above hstands.id_eq hactive hcursor
  obtain ⟨hcurrent, hbelow⟩ := unwound_of_above hactive hcursor
  have hid : (s.unwound s₀.top).id = s₀.id :=
    (unwound_moves hstands.settled).id_eq.trans hstands.id_eq
  refine ⟨_, _, unwind_of_accepted h hstands.settled.wellFormed
    (Or.inr (objection?_eq_none_iff.2 ⟨hfits, hcount⟩)), ?_, ?_⟩
  · exact top_eq hid hcurrent hbelow (Nat.min_eq_left hcount)
  · rw [active, active, hcurrent, hbelow]

/-- What is served by a stack that stands on `s₀` was free in `s₀`. -/
theorem Fresh.frees {r : Request} {address number : Nat} (hrests : RestsOn s₀ s)
    (hfresh : Fresh r s s' address) : s₀.Frees ⟨number, s'.current.region, address, r⟩ := by
  obtain ⟨newer, cursor, hactive, hcursor⟩ := hrests
  intro blk hblk hregion
  rcases List.mem_cons.1 hblk with rfl | hbelow
  · have hmem : { s₀.current with cursor } ∈ s.active := by
      rw [hactive]
      exact List.mem_append_cons_self
    have habove : s₀.current.base + cursor ≤ address := hfresh.above _ hmem hregion
    show s₀.current.base + s₀.current.cursor ≤ address
    omega
  · refine hfresh.above blk ?_ hregion
    rw [hactive]
    exact List.mem_append_right _ (List.mem_cons_of_mem _ hbelow)

end Stack

end StackArena
