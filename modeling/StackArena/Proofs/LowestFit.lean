/-
  A block is an exact lowest fit.

  The padding of a request is found with bit masks on words, and its sum with the size may be no
  word.  None of that shows: a block declines exactly the requests that no address could hold, and
  serves every other one at the lowest such address.  Addresses and sums are unbounded numbers here.

    base            base + cursor       a               a + size         base + capacity
     | taken ... taken |    padding     |    request     |    free ... free    |

  1. **Addresses** — `Block.fitting` is the set of addresses that could hold a request.  It has a
     least element if the bytes needed are free, and it is empty if they are not
     (`isLeast_fitting`, `fitting_eq_empty`).
  2. **Moves** — whatever a trial does, only the cursor moves, and it stays inside the block: a
     lemma for one move (`Trial.play_within`), and from it one for a whole trial
     (`Trial.within_of_mem_reached`).
  3. **The fit** — `Trial.fits_lowest` puts the two together.
-/
import StackArena.Proofs.Exhaustion
import StackArena.Block.Trial

namespace StackArena

namespace Block

variable {b : Build} {blk blk' : Block} {r : Request} {a : Nat}

/-! ## The addresses that could hold a request -/

/-- The addresses that could hold a request: aligned, above what is taken, and with all bytes of the
    request before the end. -/
def fitting (blk : Block) (r : Request) : Set Nat :=
  {a | r.alignment ∣ a ∧ blk.base + blk.cursor ≤ a ∧ a + r.size ≤ blk.base + blk.capacity}

/-- The address right after the padding. -/
def padded (blk : Block) (r : Request) : Nat :=
  blk.base + blk.cursor + Alignment.padding (blk.base + blk.cursor) r.alignment

/-- A request ends where the bytes that it needs end. -/
theorem padded_add_size : blk.padded r + r.size = blk.base + blk.cursor + blk.needed r := by
  unfold padded needed
  omega

/-- **Every address that could hold a request lies above the padding.** -/
theorem padded_le (hvalid : Alignment.isValid r.alignment = true) (ha : a ∈ blk.fitting r) :
    blk.padded r ≤ a := by
  obtain ⟨hdvd, habove, -⟩ := ha
  exact Alignment.add_padding_le hvalid habove hdvd

/-- If the bytes needed are free, the lowest address is the one after the padding. -/
theorem isLeast_fitting (hcursor : blk.cursor ≤ blk.capacity)
    (hvalid : Alignment.isValid r.alignment = true)
    (hfits : blk.needed r ≤ blk.capacity - blk.cursor) :
    IsLeast (blk.fitting r) (blk.padded r) := by
  refine ⟨⟨Alignment.dvd_add_padding hvalid _, ?_, ?_⟩, ?_⟩
  · exact Nat.le_add_right _ _
  · rw [padded_add_size]
    omega
  · intro x hx
    exact padded_le hvalid hx

/-- If the bytes needed are not free, no address could hold the request, however large the alignment
    and the size. -/
theorem fitting_eq_empty (hcursor : blk.cursor ≤ blk.capacity)
    (hvalid : Alignment.isValid r.alignment = true)
    (hshort : blk.capacity - blk.cursor < blk.needed r) : blk.fitting r = ∅ := by
  refine Set.eq_empty_of_forall_notMem fun a ha => ?_
  have habove := padded_le hvalid ha
  have hends : blk.padded r + r.size = blk.base + blk.cursor + blk.needed r := padded_add_size
  have hinside : a + r.size ≤ blk.base + blk.capacity := ha.2.2
  omega

/-! ## What a block answers -/

/-- The range of a block lies in the address space, and its cursor in the range. -/
structure Within (blk : Block) : Prop where
  cursor_le : blk.cursor ≤ blk.capacity
  bounded : blk.base + blk.capacity < Word.count

/-- Only the cursor can leave the range, and only over the end of the block. -/
theorem Within.move (hblk : blk.Within) {cursor : Nat} (hle : cursor ≤ blk.capacity) :
    Within { blk with cursor } :=
  ⟨hle, hblk.bounded⟩

/-- A request takes the bytes that it needs, if they are free. -/
theorem Within.spanFor_eq_needed (hblk : blk.Within)
    (hvalid : Alignment.isValid r.alignment = true) :
    blk.spanFor b r
      = .ok (if blk.needed r ≤ blk.capacity - blk.cursor then some (blk.needed r) else none) := by
  rw [spanFor_eq hblk.cursor_le hblk.bounded (Or.inr hvalid)]
  by_cases hfits : blk.needed r ≤ blk.capacity - blk.cursor
  · rw [if_pos hfits]
    cases hspan : blk.span? r with
    | none => exact absurd ((span?_eq_none_iff hblk.bounded).1 hspan) (Nat.not_lt.2 hfits)
    | some n => exact congrArg (Except.ok ∘ some) (span?_spec hspan).1
  · rw [if_neg hfits, (span?_eq_none_iff hblk.bounded).2 (Nat.lt_of_not_le hfits)]

/-- **A request whose bytes are free is served right after the padding.** -/
theorem Within.tryAllocate_eq_some (hblk : blk.Within)
    (hvalid : Alignment.isValid r.alignment = true)
    (hfits : blk.needed r ≤ blk.capacity - blk.cursor) :
    blk.tryAllocate b r = .ok (some (⟨blk.padded r, blk.needed r⟩,
      { blk with cursor := blk.cursor + blk.needed r })) := by
  have hfor : blk.spanFor b r = .ok (some (blk.needed r)) := by
    rw [hblk.spanFor_eq_needed hvalid, if_pos hfits]
  have hspan : blk.span? r = some (blk.needed r) := by
    rw [spanFor_eq hblk.cursor_le hblk.bounded (Or.inr hvalid)] at hfor
    exact Except.ok.inj hfor
  have hstart : blk.base + blk.startOf (blk.needed r) r = blk.padded r := by
    rw [(startOf_eq hspan).1, ← Nat.add_assoc]
    rfl
  rw [tryAllocate_of_some hblk.cursor_le hblk.bounded hfor hspan, hstart]
  rfl

/-- A block that gives an answer has checked the alignment, or is in a release build. -/
theorem valid_of_spanFor {taken : Option Nat} (hfor : blk.spanFor b r = .ok taken) :
    b = .release ∨ Alignment.isValid r.alignment = true := by
  cases b with
  | release => exact Or.inl rfl
  | debug =>
    refine Or.inr (Bool.eq_true_of_not_eq_false fun hbad => ?_)
    rw [spanFor, hbad] at hfor
    cases hfor

/-- What a block is after it has served a request. -/
theorem Within.of_tryAllocate (hblk : blk.Within) {placed : Allocation × Block}
    (htry : blk.tryAllocate b r = .ok (some placed)) :
    placed.2.Within ∧ placed.2 = { blk with cursor := placed.2.cursor } := by
  cases hfor : blk.spanFor b r with
  | error fault =>
    rw [tryAllocate, hfor] at htry
    cases htry
  | ok taken =>
    have hspan := (spanFor_eq hblk.cursor_le hblk.bounded (valid_of_spanFor hfor)).symm.trans hfor
    cases taken with
    | none => cases (tryAllocate_of_none hfor).symm.trans htry
    | some n =>
      have hfree := (span?_spec (Except.ok.inj hspan)).2
      have hserved := tryAllocate_of_some hblk.cursor_le hblk.bounded hfor (Except.ok.inj hspan)
      cases hserved.symm.trans htry
      have hcursor := hblk.cursor_le
      exact ⟨hblk.move (by omega), rfl⟩

/-- The addresses of a block are those from its base to its end, the end included. -/
theorem Within.contains_eq (hblk : blk.Within) :
    blk.contains b a = .ok (decide (blk.base ≤ a ∧ a ≤ blk.base + blk.capacity)) := by
  rw [contains, b.add_of_lt hblk.bounded, Except.ok_bind, Bool.decide_and]
  rfl

/-- A rewind goes back to where it is told. -/
theorem rewind_of_le {offset : Nat} (hle : offset ≤ blk.cursor) :
    blk.rewind b offset = .ok { blk with cursor := offset } := by
  rw [rewind, decide_eq_true hle, b.require_true, Except.ok_bind, Nat.min_eq_left hle]
  rfl

/-- **A rewind to an offset ahead of the cursor** is refused in a debug build; a release build stays
    where it is. -/
theorem rewind_of_lt {offset : Nat} (hlt : blk.cursor < offset) :
    blk.rewind b offset
      = if b = .debug then .error (.rewindForward offset blk.cursor) else .ok blk := by
  have hnot : ¬offset ≤ blk.cursor := Nat.not_le.2 hlt
  cases b with
  | debug =>
    rw [rewind, decide_eq_false hnot]
    rfl
  | release =>
    rw [rewind, Build.require_release, Except.ok_bind, Nat.min_eq_right (Nat.le_of_lt hlt)]
    rfl

end Block

namespace Trial

open Block

variable {b : Build} {fresh blk blk' : Block} {r : Request} {move : Move} {moves : List Move}
  {reply : Reply}

/-! ## What a trial leaves of a block -/

/-- All blocks on the way of a trial, the first included. -/
def reached (b : Build) (blk : Block) (moves : List Move) : List Block :=
  blk :: (playAll b blk moves).map Step.block

/-- Asking for a span gives its bytes, and changes nothing. -/
theorem play_span {taken : Option Nat} (hfor : blk.spanFor b r = .ok taken) :
    play b blk (.span r) = .ok (taken.elim .nothing .number, blk) := by
  rw [play, hfor, Except.ok_bind]
  cases taken <;> rfl

/-- **One move** leaves everything but the cursor as it was, and the cursor inside the block.  This
    needs no valid alignment: a debug build stops on one that is not, and a release build serves no
    more than what is free. -/
theorem play_within (hblk : blk.Within) (hplay : play b blk move = .ok (reply, blk')) :
    blk'.Within ∧ blk' = { blk with cursor := blk'.cursor } := by
  have hstill : blk.Within ∧ blk = { blk with cursor := blk.cursor } := ⟨hblk, rfl⟩
  cases move with
  | allocate r =>
    cases htry : blk.tryAllocate b r with
    | error fault => simp [play, htry, bind, Except.bind] at hplay
    | ok served =>
      simp only [play, htry, Except.ok_bind] at hplay
      cases served with
      | none =>
        cases hplay
        exact hstill
      | some placed =>
        cases hplay
        exact hblk.of_tryAllocate htry
  | span r =>
    cases hfor : blk.spanFor b r with
    | error fault => simp [play, hfor, bind, Except.bind] at hplay
    | ok taken =>
      cases (play_span hfor).symm.trans hplay
      exact hstill
  | reset =>
    cases hplay
    exact ⟨hblk.move (Nat.zero_le _), rfl⟩
  | rewind offset =>
    rcases Nat.lt_or_ge blk.cursor offset with hahead | hback
    · rw [play, rewind_of_lt hahead] at hplay
      cases b <;> cases hplay
      exact hstill
    · rw [play, rewind_of_le hback] at hplay
      cases hplay
      exact ⟨hblk.move (Nat.le_trans hback hblk.cursor_le), rfl⟩
  | contains distance =>
    rw [play, hblk.contains_eq] at hplay
    cases hplay
    exact hstill
  | debug =>
    cases hplay
    exact hstill

/-- **A whole trial** leaves everything but the cursor as it was, and the cursor inside the block,
    also after moves that fault. -/
theorem within_of_mem_reached (hblk : blk.Within) (hmem : blk' ∈ reached b blk moves) :
    blk'.Within ∧ blk' = { blk with cursor := blk'.cursor } := by
  induction moves generalizing blk with
  | nil =>
    cases List.mem_singleton.1 hmem
    exact ⟨hblk, rfl⟩
  | cons move rest ih =>
    rcases List.mem_cons.1 hmem with rfl | hlater
    · exact ⟨hblk, rfl⟩
    · rw [playAll] at hlater
      cases hplay : play b blk move with
      | error fault =>
        rw [hplay] at hlater
        exact ih hblk hlater
      | ok played =>
        -- What the rest leaves of the block after the move, it leaves of the block before it.
        rw [hplay] at hlater
        obtain ⟨hnext, hsame⟩ := play_within hblk hplay
        obtain ⟨hlast, hrest⟩ := ih hnext hlater
        refine ⟨hlast, hrest.trans ?_⟩
        rw [hsame]

/-! ## The fit -/

/-- **A block is an exact lowest fit.**  In either build, for a new block whose range lies in the
    address space, for every trial of it and every block on the way, for every size and every power
    of two as the alignment:
    1. the block is the new one but for the cursor, which is inside it;
    2. a request is declined exactly if no address could hold it; then nothing changes, and asking
       for the span says so too;
    3. any other request is served at the lowest address that could hold it.  It takes the bytes
       from the cursor to its end, the cursor moves on by them and stays inside, asking for the span
       gives their number and changes nothing, and the block contains the address;
    4. the block contains the addresses from its base to its end, and no others;
    5. a rewind goes back to where it is told; one ahead of the cursor stops a debug build, and a
       release build stays where it is. -/
theorem fits_lowest (hnew : fresh.cursor = 0) (hrange : fresh.base + fresh.capacity < Word.count)
    (hreached : blk ∈ reached b fresh moves) (hvalid : Alignment.isValid r.alignment = true) :
    (blk = { fresh with cursor := blk.cursor } ∧ blk.cursor ≤ blk.capacity) ∧
    (blk.tryAllocate b r = .ok none ↔ blk.fitting r = ∅) ∧
    (blk.fitting r = ∅ → play b blk (.allocate r) = .ok (.nothing, blk) ∧
      play b blk (.span r) = .ok (.nothing, blk)) ∧
    ((blk.fitting r).Nonempty → ∃ a reserved, IsLeast (blk.fitting r) a ∧
      blk.base + blk.cursor + reserved = a + r.size ∧
      blk.tryAllocate b r
        = .ok (some (⟨a, reserved⟩, { blk with cursor := blk.cursor + reserved })) ∧
      blk.cursor + reserved ≤ blk.capacity ∧
      play b blk (.span r) = .ok (.number reserved, blk) ∧
      blk.contains b a = .ok true) ∧
    (∀ a, blk.contains b a = .ok (decide (blk.base ≤ a ∧ a ≤ blk.base + blk.capacity))) ∧
    (∀ offset ≤ blk.cursor, blk.rewind b offset = .ok { blk with cursor := offset }) ∧
    ∀ offset, blk.cursor < offset → blk.rewind b offset
      = if b = .debug then .error (.rewindForward offset blk.cursor) else .ok blk := by
  have hfresh : fresh.Within := ⟨hnew ▸ Nat.zero_le _, hrange⟩
  obtain ⟨hblk, hsame⟩ := within_of_mem_reached hfresh hreached
  have hcursor := hblk.cursor_le
  refine ⟨⟨hsame, hcursor⟩, ?_⟩
  have hfor := hblk.spanFor_eq_needed (b := b) hvalid
  rcases Nat.lt_or_ge (blk.capacity - blk.cursor) (blk.needed r) with hshort | hfits
  · have hempty := fitting_eq_empty hcursor hvalid hshort
    rw [if_neg (Nat.not_le.2 hshort)] at hfor
    have htry : blk.tryAllocate b r = .ok none := tryAllocate_of_none hfor
    have hplay : play b blk (.allocate r) = .ok (.nothing, blk) := by
      rw [play, htry]
      rfl
    refine ⟨iff_of_true htry hempty, fun _ => ⟨hplay, play_span hfor⟩, ?_,
      fun _ => hblk.contains_eq, fun _ => rewind_of_le, fun _ => rewind_of_lt⟩
    intro hsome
    exact absurd hempty hsome.ne_empty
  · have hleast := isLeast_fitting hcursor hvalid hfits
    have hsome : blk.fitting r ≠ ∅ := Set.Nonempty.ne_empty ⟨_, hleast.1⟩
    rw [if_pos hfits] at hfor
    have htry := hblk.tryAllocate_eq_some (b := b) hvalid hfits
    have hnever : blk.tryAllocate b r ≠ .ok none := by
      rw [htry]
      nofun
    have hinside : blk.base ≤ blk.padded r ∧ blk.padded r ≤ blk.base + blk.capacity := by
      obtain ⟨-, habove, hends⟩ := hleast.1
      omega
    refine ⟨iff_of_false hnever hsome, fun hempty => absurd hempty hsome, fun _ => ?_,
      fun _ => hblk.contains_eq, fun _ => rewind_of_le, fun _ => rewind_of_lt⟩
    refine ⟨_, _, hleast, padded_add_size.symm, htry, by omega, play_span hfor, ?_⟩
    rw [hblk.contains_eq, decide_eq_true hinside]

/-- A block with three bytes in use serves eight at an alignment of eight after five bytes of
    padding, and has no address for 62 bytes; a rewind ahead before that has changed nothing. -/
theorem fits_lowest_padding :
    (⟨0, 4096, 64, 0, 0⟩ : Block).cursor = 0 ∧ 4096 + 64 < Word.count ∧
      (⟨0, 4096, 64, 3, 0⟩ : Block) ∈
        reached .debug ⟨0, 4096, 64, 0, 0⟩ [.allocate ⟨3, 1⟩, .rewind 40] ∧
      Alignment.isValid 8 = true ∧ Alignment.isValid 1 = true ∧
      IsLeast ((⟨0, 4096, 64, 3, 0⟩ : Block).fitting ⟨8, 8⟩) 4104 ∧
      (⟨0, 4096, 64, 3, 0⟩ : Block).fitting ⟨62, 1⟩ = ∅ := by
  have hreached : (⟨0, 4096, 64, 3, 0⟩ : Block) ∈
      reached .debug ⟨0, 4096, 64, 0, 0⟩ [.allocate ⟨3, 1⟩, .rewind 40] := by decide
  have hrange : 4096 + 64 < Word.count := by decide
  refine ⟨rfl, hrange, hreached, by decide, by decide, ?_, ?_⟩
  · have hfit : 4104 ∈ (⟨0, 4096, 64, 3, 0⟩ : Block).fitting ⟨8, 8⟩ := by
      refine ⟨by decide, ?_, ?_⟩ <;> decide
    have hall := fits_lowest rfl hrange hreached (r := ⟨8, 8⟩) (by decide)
    obtain ⟨a, reserved, hleast, -, htry, -⟩ := hall.2.2.2.1 ⟨_, hfit⟩
    have hrun : (⟨0, 4096, 64, 3, 0⟩ : Block).tryAllocate .debug ⟨8, 8⟩
        = .ok (some (⟨4104, 13⟩, ⟨0, 4096, 64, 16, 0⟩)) := rfl
    cases htry.symm.trans hrun
    exact hleast
  · have hall := fits_lowest rfl hrange hreached (r := ⟨62, 1⟩) (by decide)
    exact hall.2.1.1 rfl

end Trial

end StackArena
