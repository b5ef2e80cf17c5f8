/-
  Spans: the bytes that a request takes in a block.

  A request at the cursor takes the padding and its size, if they are free together (`span?`), and it
  starts right after the padding (`startOf`).  In a block inside the address space the checked
  operations are these plain ones, whatever the build checks.
-/
import StackArena.Proofs.Multiples
import StackArena.Proofs.Outcome
import StackArena.Block.Basic

namespace StackArena

namespace Block

/-! ## The span of a request in a block -/

/-- Bytes that a request takes at the cursor, padding and size; `none` if they are not free. -/
def span? (blk : Block) (r : Request) : Option Nat :=
  (Word.add? (Alignment.padding (blk.base + blk.cursor) r.alignment) r.size).filter
    (· ≤ blk.capacity - blk.cursor)

/-- The block with its cursor moved on by `n` bytes. -/
def advance (n : Nat) (blk : Block) : Block := { blk with cursor := blk.cursor + n }

/-- The offset at which a request starts that takes `n` bytes. -/
def startOf (blk : Block) (n : Nat) (r : Request) : Nat := blk.cursor + n - r.size

/-- A span is the padding and the size, and it is free. -/
theorem span?_spec {blk : Block} {r : Request} {n : Nat} (h : blk.span? r = some n) :
    n = Alignment.padding (blk.base + blk.cursor) r.alignment + r.size ∧
      n ≤ blk.capacity - blk.cursor := by
  obtain ⟨hadd, hfits⟩ := Option.filter_eq_some_iff.1 h
  unfold Word.add? at hadd
  split at hadd
  · cases hadd
    exact ⟨rfl, of_decide_eq_true hfits⟩
  · nomatch hadd

/-- The padding comes before the start, and the bytes of the request after it. -/
theorem startOf_eq {blk : Block} {r : Request} {n : Nat} (h : blk.span? r = some n) :
    blk.startOf n r = blk.cursor + Alignment.padding (blk.base + blk.cursor) r.alignment ∧
      blk.startOf n r + r.size = blk.cursor + n := by
  have := (span?_spec h).1
  unfold startOf
  omega

/-- A request starts at a multiple of its alignment. -/
theorem dvd_start {blk : Block} {r : Request} {n : Nat} (h : blk.span? r = some n)
    (hvalid : Alignment.isValid r.alignment = true) :
    r.alignment ∣ blk.base + blk.startOf n r := by
  rw [(startOf_eq h).1, ← Nat.add_assoc]
  exact Alignment.dvd_add_padding hvalid _

/-- A checked request in a block asks for its span; no check of an address or of the free bytes
    fires. -/
theorem spanFor_eq {b : Build} {blk : Block} {r : Request} (hcursor : blk.cursor ≤ blk.capacity)
    (hbound : blk.base + blk.capacity < Word.count)
    (hvalid : b = .release ∨ Alignment.isValid r.alignment = true) :
    blk.spanFor b r = .ok (blk.span? r) := by
  have hadd : b.add blk.base blk.cursor = .ok (blk.base + blk.cursor) :=
    b.add_of_lt (by omega)
  have hpad : Alignment.offset b (blk.base + blk.cursor) r.alignment
      = .ok (Alignment.padding (blk.base + blk.cursor) r.alignment) := by
    rw [Alignment.offset, Build.require_of_holds _ hvalid]
    rfl
  rw [spanFor, Build.require_of_holds _ hvalid, Except.ok_bind, hadd, Except.ok_bind, hpad,
    Except.ok_bind, span?]
  cases hw : Word.add? (Alignment.padding (blk.base + blk.cursor) r.alignment) r.size with
  | none => rfl
  | some n =>
    show (blk.remaining b >>= fun free => _) = _
    rw [remaining, b.sub_of_le hcursor, Except.ok_bind]
    by_cases hn : n ≤ blk.capacity - blk.cursor
    · rw [if_pos hn, Option.filter_some, if_pos (decide_eq_true hn)]
      rfl
    · rw [if_neg hn, Option.filter_some, if_neg (by simpa using hn)]
      rfl

theorem tryAllocate_of_none {b : Build} {blk : Block} {r : Request}
    (hspan : blk.spanFor b r = .ok none) : blk.tryAllocate b r = .ok none := by
  rw [tryAllocate, hspan]
  rfl

/-- A request that has a span is served right after its padding. -/
theorem tryAllocate_of_some {b : Build} {blk : Block} {r : Request} {n : Nat}
    (hcursor : blk.cursor ≤ blk.capacity) (hbound : blk.base + blk.capacity < Word.count)
    (hspan : blk.spanFor b r = .ok (some n)) (h : blk.span? r = some n) :
    blk.tryAllocate b r = .ok (some (⟨blk.base + blk.startOf n r, n⟩, blk.advance n)) := by
  obtain ⟨hn, hfits⟩ := span?_spec h
  have hadd : b.add blk.cursor n = .ok (blk.cursor + n) := b.add_of_lt (by omega)
  have hsub : b.sub (blk.cursor + n) r.size = .ok (blk.startOf n r) := b.sub_of_le (by omega)
  have haddr : blk.addressAt (blk.startOf n r) = .ok (blk.base + blk.startOf n r) := by
    rw [addressAt, if_pos (by unfold startOf; omega)]
  rw [tryAllocate, hspan, Except.ok_bind]
  simp only [hadd, hsub, haddr, Except.ok_bind]
  rfl

end Block

end StackArena
