/-
  Regions as extents, and what a heap promises about them.

  Which addresses a region covers, and whether it is still there, is its extent; the bytes do not
  matter for that.  Memory is **spaced** by `gap` when two regions that are both there keep at
  least `gap` bytes between them: gap 0 means that they do not overlap, gap 1 that they do not
  touch either.  A heap is **sound** when what it places keeps memory spaced, on multiples of the
  alignment and inside the address space.

  1. every operation on memory, seen through `extent?`;
  2. whatever happens, a region stays where it is, freed or not (`Ages`);
  3. spaced memory stays spaced when a region is made by a sound heap, freed or overwritten;
  4. disjoint stretches below a bound have at most that many bytes together (`sum_le_of_apart`);
  5. the simple heap of `Placement` is sound, with any gap up to its own.
-/
import StackArena.Proofs.Outcome
import StackArena.Session.Setting
import Mathlib.Algebra.GroupWithZero.Nat
import Mathlib.Order.Interval.Finset.Nat

namespace StackArena

namespace Memory

/-! ## Memory through its extents -/

/-- The extent of region `number`. -/
def extent? (m : Memory) (number : Nat) : Option Extent := (m.region? number).map Region.toExtent

@[simp] theorem extent?_fill (m : Memory) (number offset length n : Nat) (byte : UInt8) :
    (m.fill number offset length byte).extent? n = m.extent? n := by
  by_cases hn : n = number
  · subst hn
    simp only [extent?, region?, fill, List.getElem?_modify_eq]
    cases m.regions[n]? <;> rfl
  · simp only [extent?, region?, fill, List.getElem?_modify_ne _ _ (Ne.symm hn)]

theorem extent?_addRegion_of_some {m : Memory} {n : Nat} {x : Extent} (base : Nat) (l : Layout)
    (scrap : Bytes) (h : m.extent? n = some x) :
    (m.addRegion base l scrap).extent? n = some x := by
  have hlt : n < m.regions.length := by
    rcases Nat.lt_or_ge n m.regions.length with hlt | hge
    · exact hlt
    · rw [extent?, region?, List.getElem?_eq_none hge] at h
      nomatch h
  rw [← h, extent?, extent?, region?, region?, addRegion, List.getElem?_append_left hlt]

@[simp] theorem extent?_nextRegion (m : Memory) : m.extent? m.nextRegion = none := by
  simp [extent?, region?, nextRegion]

@[simp] theorem extent?_addRegion_self (m : Memory) (base : Nat) (l : Layout) (scrap : Bytes) :
    (m.addRegion base l scrap).extent? m.nextRegion = some ⟨base, l, true⟩ := by
  simp [extent?, region?, nextRegion, addRegion, Region.fresh]

/-- A region of memory with one more is an old one or the new one. -/
theorem extent?_addRegion_cases {m : Memory} {n base : Nat} {l : Layout} {scrap : Bytes}
    {x : Extent} (h : (m.addRegion base l scrap).extent? n = some x) :
    m.extent? n = some x ∨ (n = m.nextRegion ∧ x = ⟨base, l, true⟩) := by
  rcases Nat.lt_trichotomy n m.regions.length with hlt | heq | hgt
  · refine Or.inl ?_
    rw [← h, extent?, extent?, region?, region?, addRegion, List.getElem?_append_left hlt]
  · refine Or.inr ⟨heq, ?_⟩
    rw [heq, show m.regions.length = m.nextRegion from rfl, extent?_addRegion_self] at h
    exact (Option.some.inj h).symm
  · rw [extent?, region?, addRegion, List.getElem?_eq_none (by simp; omega)] at h
    cases h

@[simp] theorem extent?_freeRegion_ne {m : Memory} {number n : Nat} (h : n ≠ number) :
    (m.freeRegion number).extent? n = m.extent? n := by
  simp only [extent?, region?, freeRegion, List.getElem?_modify_ne _ _ (Ne.symm h)]

/-- A freed region stays on record. -/
theorem extent?_freeRegion_self (m : Memory) (n : Nat) :
    (m.freeRegion n).extent? n = (m.extent? n).map fun x => { x with live := false } := by
  rw [extent?, extent?, region?, region?, freeRegion, List.getElem?_modify_eq]
  cases m.regions[n]? <;> rfl

/-- A region of memory with one freed was there before, with the same base and layout; and it is
    still live only if it is another one than that. -/
theorem extent?_freeRegion_cases {m : Memory} {number n : Nat} {x : Extent}
    (h : (m.freeRegion number).extent? n = some x) (hlive : x.live = true) :
    n ≠ number ∧ m.extent? n = some x := by
  by_cases hn : n = number
  · subst hn
    simp only [extent?, region?, freeRegion, List.getElem?_modify_eq] at h
    cases hr : m.regions[n]? with
    | none => rw [hr] at h; nomatch h
    | some r =>
      rw [hr] at h
      cases h
      nomatch hlive
  · exact ⟨hn, by rwa [extent?_freeRegion_ne hn] at h⟩

/-- The heap is shown exactly the extents. -/
theorem mem_outline_iff {m : Memory} {x : Extent} :
    x ∈ m.outline.regions ↔ ∃ n, m.extent? n = some x := by
  simp only [outline, List.mem_iff_getElem?, List.getElem?_map, extent?, region?]

/-! ## Memory that ages -/

/-- `m.Ages m'`: every region of `m` is still on record, where it was, freed or not. -/
def Ages (m m' : Memory) : Prop := ∀ n x, m.extent? n = some x →
  ∃ live, m'.extent? n = some { x with live }

section

variable {m m₁ m₂ m₃ : Memory}

theorem Ages.refl (m : Memory) : m.Ages m := fun _ x hx => ⟨x.live, hx⟩

theorem Ages.trans (hfirst : m₁.Ages m₂) (hsecond : m₂.Ages m₃) : m₁.Ages m₃ := by
  intro n x hx
  obtain ⟨live, hx₂⟩ := hfirst n x hx
  obtain ⟨live', hx₃⟩ := hsecond n _ hx₂
  exact ⟨live', hx₃⟩

/-- Memory with the same extents has not aged. -/
theorem Ages.of_eq (heq : ∀ n, m₂.extent? n = m₁.extent? n) : m₁.Ages m₂ :=
  fun n x hx => ⟨x.live, (heq n).trans hx⟩

theorem ages_freeRegion (m : Memory) (number : Nat) : m.Ages (m.freeRegion number) := by
  intro n x hx
  by_cases hn : n = number
  · subst hn
    refine ⟨false, ?_⟩
    rw [extent?_freeRegion_self, hx]
    rfl
  · exact ⟨x.live, (extent?_freeRegion_ne hn).trans hx⟩

/-- What is on record stays so. -/
theorem Ages.ne_none (h : m₁.Ages m₂) {n : Nat} (hn : m₁.extent? n ≠ none) :
    m₂.extent? n ≠ none := by
  obtain ⟨x, hx⟩ := Option.ne_none_iff_exists'.1 hn
  obtain ⟨live, hx₂⟩ := h n x hx
  rw [hx₂]
  nofun

end

/-! ## Spaced memory -/

/-- `Spaced gap m`: what is live lies in the address space, with `gap` bytes between any two. -/
structure Spaced (gap : Nat) (m : Memory) : Prop where
  bounded : ∀ n x, m.extent? n = some x → x.live = true → x.limit < Word.count
  apart : ∀ i j x y, m.extent? i = some x → m.extent? j = some y → i ≠ j →
    x.live = true → y.live = true → x.limit + gap ≤ y.base ∨ y.limit + gap ≤ x.base

theorem Spaced.empty (gap : Nat) : Memory.empty.Spaced gap :=
  ⟨fun n x h => by simp [extent?, region?, Memory.empty] at h,
   fun i j x y h => by simp [extent?, region?, Memory.empty] at h⟩

/-- Memory with the same extents is spaced alike. -/
theorem Spaced.congr {gap : Nat} {m m' : Memory} (h : m.Spaced gap)
    (heq : ∀ n, m'.extent? n = m.extent? n) : m'.Spaced gap :=
  ⟨fun n x hx => h.bounded n x (by rwa [heq] at hx),
   fun i j x y hx hy => h.apart i j x y (by rwa [heq] at hx) (by rwa [heq] at hy)⟩

theorem Spaced.freeRegion {gap : Nat} {m : Memory} (h : m.Spaced gap) (number : Nat) :
    (m.freeRegion number).Spaced gap := by
  constructor
  · intro n x hx hl
    exact h.bounded n x (extent?_freeRegion_cases hx hl).2 hl
  · intro i j x y hx hy hij hxl hyl
    exact h.apart i j x y (extent?_freeRegion_cases hx hxl).2 (extent?_freeRegion_cases hy hyl).2
      hij hxl hyl

end Memory

/-! ## The contract of the heap -/

/-- `Sound gap p`: a region is placed at a multiple of the largest natural alignment, inside the
    address space, and `gap` bytes away from every region that is still there. -/
structure Platform.Sound (gap : Nat) (p : Platform) : Prop where
  aligned : ∀ o l base, p.placeRegion o l = some base → Alignment.maxNatural ∣ base
  bounded : ∀ o l base, p.placeRegion o l = some base → base + l.size < Word.count
  apart : ∀ o l base, p.placeRegion o l = some base → ∀ x ∈ o.regions, x.live = true →
    x.limit + gap ≤ base ∨ base + l.size + gap ≤ x.base

/-- A sound heap keeps memory spaced. -/
theorem Memory.Spaced.addRegion {gap : Nat} {p : Platform} (hp : p.Sound gap) {m : Memory}
    (h : m.Spaced gap) {l : Layout} {base : Nat} (hbase : p.placeRegion m.outline l = some base)
    (scrap : Bytes) : (m.addRegion base l scrap).Spaced gap := by
  have hnew : ∀ n x, m.extent? n = some x → x.live = true →
      x.limit + gap ≤ base ∨ base + l.size + gap ≤ x.base := fun n x hx hl =>
    hp.apart _ _ _ hbase x (Memory.mem_outline_iff.2 ⟨n, hx⟩) hl
  constructor
  · intro n x hx hl
    rcases Memory.extent?_addRegion_cases hx with hx | ⟨-, rfl⟩
    · exact h.bounded n x hx hl
    · exact hp.bounded _ _ _ hbase
  · intro i j x y hx hy hij hxl hyl
    -- The heap answers for the pairs with the new region, and only for these.
    rcases Memory.extent?_addRegion_cases hx with hx | ⟨hi, rfl⟩ <;>
      rcases Memory.extent?_addRegion_cases hy with hy | ⟨hj, rfl⟩
    · exact h.apart i j x y hx hy hij hxl hyl
    · exact hnew i x hx hxl
    · exact (hnew j y hy hyl).symm
    · exact absurd (hi.trans hj.symm) hij

/-! ## Adding up disjoint stretches -/

/-- Disjoint stretches below a bound have at most that many bytes together.  The induction keeps
    the set of the addresses covered so far: each stretch adds its size to the set. -/
theorem sum_le_of_apart {α : Type} (base size : α → Nat) {bound : Nat} (xs : List α)
    (hbound : ∀ x ∈ xs, base x + size x ≤ bound)
    (hapart : xs.Pairwise fun x y => base x + size x ≤ base y ∨ base y + size y ≤ base x) :
    (xs.map size).sum ≤ bound := by
  have hcover : ∃ covered : Finset Nat, covered.card = (xs.map size).sum ∧
      ∀ a ∈ covered, ∃ x ∈ xs, base x ≤ a ∧ a < base x + size x := by
    -- The set is about the sizes alone; the bound comes in at the end.
    clear hbound
    induction xs with
    | nil => exact ⟨∅, rfl, fun a ha => absurd ha (Finset.notMem_empty a)⟩
    | cons x rest ih =>
      obtain ⟨hx, hrest⟩ := List.pairwise_cons.1 hapart
      obtain ⟨covered, hcard, hmem⟩ := ih hrest
      have hdisj : Disjoint (Finset.Ico (base x) (base x + size x)) covered := by
        rw [Finset.disjoint_left]
        intro a ha hac
        obtain ⟨y, hy, hlo, hhi⟩ := hmem a hac
        rw [Finset.mem_Ico] at ha
        have := hx y hy
        omega
      refine ⟨Finset.Ico (base x) (base x + size x) ∪ covered, ?_, ?_⟩
      · rw [Finset.card_union_of_disjoint hdisj, hcard, Nat.card_Ico, List.map_cons, List.sum_cons]
        omega
      · intro a ha
        rcases Finset.mem_union.1 ha with ha | ha
        · rw [Finset.mem_Ico] at ha
          exact ⟨x, List.mem_cons_self, ha⟩
        · obtain ⟨y, hy, hin⟩ := hmem a ha
          exact ⟨y, List.mem_cons_of_mem x hy, hin⟩
  obtain ⟨covered, hcard, hmem⟩ := hcover
  have hsub : covered ⊆ Finset.range bound := by
    intro a ha
    obtain ⟨x, hx, -, hhi⟩ := hmem a ha
    exact Finset.mem_range.2 (Nat.lt_of_lt_of_le hhi (hbound x hx))
  rw [← hcard, ← Finset.card_range bound]
  exact Finset.card_le_card hsub

/-! ## The simple heap is sound -/

namespace Outline

theorem le_foldl_max (xs : List Extent) (n : Nat) :
    n ≤ xs.foldl (fun top x => max top x.limit) n := by
  induction xs generalizing n with
  | nil => exact Nat.le_refl n
  | cons x rest ih => exact Nat.le_trans (Nat.le_max_left n x.limit) (ih _)

/-- No extent reaches above the limit of the outline. -/
theorem limit_le {o : Outline} {x : Extent} (hx : x ∈ o.regions ++ o.chunks) :
    x.limit ≤ o.limit := by
  have hall : ∀ (xs : List Extent) (n : Nat), x ∈ xs →
      x.limit ≤ xs.foldl (fun top y => max top y.limit) n := by
    intro xs
    induction xs with
    | nil => intro n hx; nomatch hx
    | cons y rest ih =>
      intro n hx
      rcases List.mem_cons.1 hx with rfl | hx
      · exact Nat.le_trans (Nat.le_max_right n x.limit) (le_foldl_max rest _)
      · exact ih _ hx
  exact hall _ 0 hx

end Outline

/-- Rounding up to a multiple loses nothing. -/
theorem Placement.le_next (o : Outline) {a : Nat} (ha : 0 < a) :
    o.limit + Placement.gap ≤ Placement.next o a := by
  show o.limit + Placement.gap ≤ (o.limit + Placement.gap + (a - 1)) / a * a
  have hrest := Nat.mod_lt (o.limit + Placement.gap + (a - 1)) ha
  have hsplit := Nat.div_add_mod' (o.limit + Placement.gap + (a - 1)) a
  omega

/-- What the simple heap places stands above everything that was ever made, gap included. -/
theorem Placement.region_spec {skews : List Nat} {o : Outline} {l : Layout} {base : Nat}
    (h : Placement.region skews o l = some base) :
    o.limit + Placement.gap ≤ base ∧ base + l.size < Placement.space ∧
      ∃ k, base = k * Placement.page + skews[o.regions.length % skews.length]?.getD 0 := by
  simp only [Placement.region, Placement.fitting?] at h
  split at h
  · rename_i hfits
    cases h
    refine ⟨?_, hfits.2, _, rfl⟩
    have := Placement.le_next o (a := Placement.page) (by decide)
    omega
  · nomatch h

/-- **The simple heap is sound**, with every gap up to its own, if the skews keep to the largest
    natural alignment. -/
theorem Placement.sound {p : Platform} {skews : List Nat} {gap : Nat}
    (hplace : p.placeRegion = Placement.region skews)
    (hskews : ∀ skew ∈ skews, Alignment.maxNatural ∣ skew) (hgap : gap ≤ Placement.gap) :
    p.Sound gap := by
  refine ⟨fun o l base h => ?_, fun o l base h => ?_, fun o l base h x hx _ => ?_⟩ <;>
    rw [hplace] at h <;> obtain ⟨habove, hbelow, k, hk⟩ := Placement.region_spec h
  · have hpage : Alignment.maxNatural ∣ k * Placement.page :=
      Dvd.dvd.mul_left (by decide) k
    have hskew : Alignment.maxNatural ∣ skews[o.regions.length % skews.length]?.getD 0 := by
      cases hs : skews[o.regions.length % skews.length]? with
      | none => exact Nat.dvd_zero _
      | some skew => exact hskews skew (List.mem_of_getElem? hs)
    rw [hk]
    exact Nat.dvd_add hpage hskew
  · exact Nat.lt_trans hbelow (by decide)
  · have := Outline.limit_le (List.mem_append_left _ hx)
    exact Or.inl (by omega)

/-- The platform of a session has a sound heap, if its skews keep to the alignment. -/
theorem Session.platform_sound (b : Build) {skews : List Nat} {gap : Nat}
    (hskews : ∀ skew ∈ skews, Alignment.maxNatural ∣ skew) (hgap : gap ≤ Placement.gap) :
    (Session.platform b skews).Sound gap := Placement.sound rfl hskews hgap

end StackArena
