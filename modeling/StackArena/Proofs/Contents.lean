/-
  What operations write.

  A byte of memory is known by the number of its region and its offset there (`byteAt`).  What an
  operation writes is a set of such places with the one byte that is written to all of them
  (`Overwrites`); every other byte of memory is left as it was.

  1. The operations on memory: overwriting writes what it says, and making or freeing a region
     writes nothing.
  2. A request writes the bytes that it hands out, padding left alone, if the stack overwrites
     (`Serves.overwrites`).
  3. An unwind writes the bytes that were taken and are not any more (`unwound_overwrites`): blocks
     are dropped one after the other, and each drop takes back what the cursor of the block says.
  4. Whatever happens to a stack, what is taken before and after is not written (`Change.treats`).
-/
import StackArena.Proofs.Clamping

namespace StackArena

namespace Bytes

variable {s : Bytes} {offset length : Nat}

theorem length_fill (hin : offset + length ≤ s.toList.length) (byte : UInt8) :
    (s.fill offset length byte).toList.length = s.toList.length := by
  rw [toList_fill]
  simp only [List.length_append, List.length_take, List.length_replicate, List.length_drop]
  omega

/-- The bytes of a range that was overwritten, and the other ones. -/
theorem getElem?_fill (hin : offset + length ≤ s.toList.length) (byte : UInt8) (o : Nat) :
    (s.fill offset length byte).toList[o]?
      = if offset ≤ o ∧ o < offset + length then some byte else s.toList[o]? := by
  have htake : (s.toList.take offset).length = offset := by
    rw [List.length_take]
    omega
  have hfront : (s.toList.take offset ++ List.replicate length byte).length = offset + length := by
    simp only [List.length_append, List.length_replicate, htake]
  rw [toList_fill]
  by_cases hlow : o < offset
  · rw [if_neg (by omega), List.getElem?_append_left (by omega),
      List.getElem?_append_left (by omega), List.getElem?_take_of_lt hlow]
  · by_cases hhigh : o < offset + length
    · rw [if_pos (by omega), List.getElem?_append_left (by omega),
        List.getElem?_append_right (by omega), List.getElem?_replicate_of_lt (by omega)]
    · rw [if_neg (by omega), List.getElem?_append_right (by omega), hfront, List.getElem?_drop]
      congr 1
      omega

/-- The bytes that a region is made with. -/
theorem getElem?_resize (n o : Nat) :
    (s.resize n).toList[o]? = if o < n then some ((s.toList[o]?).getD 0) else none := by
  have htake : (s.toList.take n).length = min n s.length := by
    rw [List.length_take, length_toList]
  have hlength := s.length_toList
  rw [toList_resize]
  by_cases hlow : o < n
  · rw [if_pos hlow]
    by_cases hthere : o < s.length
    · rw [List.getElem?_append_left (by omega), List.getElem?_take_of_lt hlow,
        List.getElem?_eq_getElem (by omega)]
      rfl
    · rw [List.getElem?_append_right (by omega), List.getElem?_replicate_of_lt (by omega),
        List.getElem?_eq_none (by omega)]
      rfl
  · rw [if_neg hlow, List.getElem?_append_right (by omega), List.getElem?_replicate]
    exact if_neg (by omega)

end Bytes

/-- Byte `offset` of region `number` before anything is written to it. -/
def Platform.firstByte (p : Platform) (number offset : Nat) : UInt8 :=
  ((p.scrap number).toList[offset]?).getD 0

namespace Memory

variable {p : Platform} {m m₁ m₂ m₃ : Memory} {byte : UInt8} {P Q : Nat → Nat → Prop}

/-! ## Bytes of memory -/

/-- Byte `offset` of region `number`.  Where there is none, or none yet, it is the first one. -/
def byteAt (p : Platform) (m : Memory) (number offset : Nat) : UInt8 :=
  ((m.region? number).bind fun r => r.bytes.toList[offset]?).getD (p.firstByte number offset)

/-- Every region has as many bytes as its layout says. -/
def Whole (m : Memory) : Prop := ∀ n r, m.region? n = some r →
  r.bytes.toList.length = r.layout.size

/-- `Overwrites p P byte m m'`: what is written between the two is `byte`, at the places `P`. -/
structure Overwrites (p : Platform) (P : Nat → Nat → Prop) (byte : UInt8) (m m' : Memory) :
    Prop where
  whole : m'.Whole
  ages : m.Ages m'
  inside : ∀ n o, P n o → m'.byteAt p n o = byte
  outside : ∀ n o, ¬P n o → m'.byteAt p n o = m.byteAt p n o

theorem Whole.empty : Memory.empty.Whole := by
  intro n r hr
  simp [region?, Memory.empty] at hr

/-- A region that was not made yet is as it will be at first. -/
theorem byteAt_of_none {n : Nat} (hn : m.extent? n = none) (o : Nat) :
    m.byteAt p n o = p.firstByte n o := by
  rw [byteAt, Option.map_eq_none_iff.1 hn]
  rfl

theorem Overwrites.refl (hm : m.Whole) : Overwrites p (fun _ _ => False) byte m m :=
  ⟨hm, .refl m, nofun, fun _ _ _ => rfl⟩

theorem Overwrites.congr (h : Overwrites p P byte m₁ m₂) (heq : ∀ n o, Q n o ↔ P n o) :
    Overwrites p Q byte m₁ m₂ := by
  refine ⟨h.whole, h.ages, ?_, ?_⟩
  · intro n o hq
    exact h.inside n o ((heq n o).1 hq)
  · intro n o hq
    exact h.outside n o (fun hp => hq ((heq n o).2 hp))

/-- One byte written in two goes. -/
theorem Overwrites.trans (hfirst : Overwrites p P byte m₁ m₂) (hsecond : Overwrites p Q byte m₂ m₃) :
    Overwrites p (fun n o => P n o ∨ Q n o) byte m₁ m₃ := by
  refine ⟨hsecond.whole, hfirst.ages.trans hsecond.ages, ?_, ?_⟩
  · intro n o hpq
    by_cases hq : Q n o
    · exact hsecond.inside n o hq
    · rw [hsecond.outside n o hq]
      exact hfirst.inside n o (hpq.resolve_right hq)
  · intro n o hpq
    obtain ⟨hp, hq⟩ := not_or.1 hpq
    rw [hsecond.outside n o hq, hfirst.outside n o hp]

/-! ## What the operations on memory write -/

/-- What is done to one region, seen from all of them. -/
theorem region?_modify (f : Region → Region) (number n : Nat) :
    region? { m with regions := m.regions.modify number f } n
      = if n = number then (m.region? n).map f else m.region? n := by
  by_cases hn : n = number
  · subst hn
    rw [if_pos rfl, region?, region?, List.getElem?_modify_eq]
    rfl
  · rw [if_neg hn, region?, region?, List.getElem?_modify_ne _ _ (Ne.symm hn)]

/-- Overwriting a range inside a region writes the range. -/
theorem overwrites_fill (hm : m.Whole) {number offset length : Nat} {x : Extent}
    (hx : m.extent? number = some x) (hin : offset + length ≤ x.layout.size) (byte : UInt8) :
    Overwrites p (fun n o => n = number ∧ offset ≤ o ∧ o < offset + length) byte m
      (m.fill number offset length byte) := by
  obtain ⟨r, hr, rfl⟩ := Option.map_eq_some_iff.1 hx
  have hsize := hm number r hr
  have hregion : ∀ n, (m.fill number offset length byte).region? n
      = if n = number then (m.region? n).map (Region.fill offset length byte)
        else m.region? n := region?_modify _ number
  refine ⟨?_, .of_eq fun n => m.extent?_fill _ _ _ n _, ?_, ?_⟩
  · intro n r' hr'
    rw [hregion] at hr'
    by_cases hn : n = number
    · subst hn
      rw [if_pos rfl, hr] at hr'
      cases hr'
      show (r.bytes.fill offset length byte).toList.length = r.layout.size
      rw [Bytes.length_fill (by omega), hsize]
    · rw [if_neg hn] at hr'
      exact hm n r' hr'
  · rintro n o ⟨rfl, hlow, hhigh⟩
    rw [byteAt, hregion, if_pos rfl, hr]
    show ((r.bytes.fill offset length byte).toList[o]?).getD _ = byte
    rw [Bytes.getElem?_fill (by omega), if_pos ⟨hlow, hhigh⟩]
    rfl
  · intro n o hout
    rw [byteAt, byteAt, hregion]
    by_cases hn : n = number
    · subst hn
      rw [if_pos rfl, hr]
      show ((r.bytes.fill offset length byte).toList[o]?).getD _ = (r.bytes.toList[o]?).getD _
      rw [Bytes.getElem?_fill (by omega), if_neg (by omega)]
    · rw [if_neg hn]

/-- A region that is freed keeps its bytes. -/
theorem overwrites_freeRegion (hm : m.Whole) (number : Nat) (byte : UInt8) :
    Overwrites p (fun _ _ => False) byte m (m.freeRegion number) := by
  have hregion : ∀ n, (m.freeRegion number).region? n
      = if n = number then (m.region? n).map Region.kill else m.region? n :=
    region?_modify _ number
  refine ⟨?_, m.ages_freeRegion number, nofun, ?_⟩
  · intro n r' hr'
    rw [hregion] at hr'
    split at hr'
    · obtain ⟨r, hr, rfl⟩ := Option.map_eq_some_iff.1 hr'
      exact hm n r hr
    · exact hm n r' hr'
  · intro n o _
    rw [byteAt, byteAt, hregion]
    split
    · cases m.region? n <;> rfl
    · rfl

/-- A new region is left as it is. -/
theorem overwrites_addRegion (hm : m.Whole) (base : Nat) (l : Layout) (byte : UInt8) :
    Overwrites p (fun _ _ => False) byte m (m.addRegion base l (p.scrap m.nextRegion)) := by
  generalize hgrow : m.addRegion base l (p.scrap m.nextRegion) = m'
  have hgrown : m'.nextRegion = m.nextRegion + 1 := by
    simp [← hgrow, nextRegion, addRegion]
  have hold : ∀ {n}, n < m.nextRegion → m'.region? n = m.region? n := fun hn => by
    rw [← hgrow]
    exact List.getElem?_append_left hn
  have hnew : m'.region? m.nextRegion = some (.fresh base l (p.scrap m.nextRegion)) := by
    simp [← hgrow, region?, addRegion, nextRegion]
  have hnone : ∀ {n}, m.nextRegion ≤ n → m.extent? n = none := fun hn => by
    rw [extent?, region?, List.getElem?_eq_none hn]
    rfl
  refine ⟨?_, fun n x hx => ⟨x.live, hgrow ▸ extent?_addRegion_of_some base l _ hx⟩,
    fun _ _ hfalse => hfalse.elim, ?_⟩
  · intro n r hr
    rcases Nat.lt_trichotomy n m.nextRegion with hlt | rfl | hgt
    · rw [hold hlt] at hr
      exact hm n r hr
    · rw [hnew] at hr
      cases hr
      exact (p.scrap m.nextRegion).length_resize l.size
    · have hlt := (List.getElem?_eq_some_iff.1 hr).1
      change n < m'.nextRegion at hlt
      omega
  · intro n o _
    rcases Nat.lt_trichotomy n m.nextRegion with hlt | rfl | hgt
    · rw [byteAt, byteAt, hold hlt]
    · rw [byteAt_of_none (hnone (Nat.le_refl _)), byteAt, hnew]
      show (((p.scrap m.nextRegion).resize l.size).toList[o]?).getD _ = _
      rw [Bytes.getElem?_resize]
      split <;> rfl
    · have hlate : m'.region? n = none :=
        List.getElem?_eq_none (by change m'.nextRegion ≤ n; omega)
      rw [byteAt_of_none (hnone (by omega)), byteAt, hlate]
      rfl

end Memory

namespace Stack

open Memory

variable {p : Platform} {gap : Nat} {r : Request} {s s' : Stack} {h h' : Host}

/-! ## What a request writes -/

/-- Overwriting a range of the current block, if the stack does that. -/
theorem overwrites_painted (hm : h.memory.Whole) (hl : Lodged h.memory s) {offset length : Nat}
    (hin : offset + length ≤ s.current.capacity) (byte : UInt8) :
    Overwrites p (fun n o => s.fill = true ∧ n = s.current.region ∧ offset ≤ o ∧ o < offset + length)
      byte h.memory (s.painted h offset length byte).memory := by
  unfold painted
  by_cases hfill : s.fill = true
  · rw [if_pos hfill]
    have hwritten := overwrites_fill (p := p) hm (hl.housed _ s.current_mem_blocks) hin byte
    apply hwritten.congr
    simp [hfill]
  · rw [if_neg hfill]
    apply (Overwrites.refl hm).congr
    simp [hfill]

/-- Byte `o` of region `n` is one of those that a request has been given. -/
def Handed (s' : Stack) (r : Request) (out : Except Fault (Option Nat)) (n o : Nat) : Prop :=
  ∃ address, out = .ok (some address) ∧ n = s'.current.region ∧
    address ≤ s'.current.base + o ∧ s'.current.base + o < address + r.size

theorem Bump.overwrites {out : Except Fault (Option Nat)} (hm : h.memory.Whole)
    (hset : Settled gap s h) (hbump : Bump p r s h (out, s', h')) :
    Overwrites p (fun n o => s.fill = true ∧ s'.Handed r out n o) Config.newPattern h.memory
      h'.memory := by
  cases hbump with
  | declined =>
    apply (Overwrites.refl hm).congr
    simp [Handed]
  | overdrawn =>
    apply (Overwrites.refl hm).congr
    simp [Handed]
  | @served k _ hspan hout =>
    have hend := (Block.startOf_eq hspan).2
    have hfits := hset.wellFormed.span_le hspan
    apply (overwrites_painted hm hset.lodged (by omega) Config.newPattern).congr
    intro n o
    constructor
    · rintro ⟨hfill, address, haddress, hregion, hlow, hhigh⟩
      cases haddress
      change s.current.base + s.current.startOf k r ≤ s.current.base + o at hlow
      change s.current.base + o < s.current.base + s.current.startOf k r + r.size at hhigh
      exact ⟨hfill, hregion, by omega, by omega⟩
    · rintro ⟨hfill, hregion, hlow, hhigh⟩
      refine ⟨hfill, _, rfl, hregion, ?_, ?_⟩
      · show s.current.base + s.current.startOf k r ≤ s.current.base + o
        omega
      · show s.current.base + o < s.current.base + s.current.startOf k r + r.size
        omega

/-- A growth writes nothing: a new region is made as it is. -/
theorem Grow.overwrites {required : Nat} {out : Except Fault Unit} (hm : h.memory.Whole)
    (byte : UInt8) (hgrow : Grow p required s h (out, s', h')) :
    Overwrites p (fun _ _ => False) byte h.memory h'.memory := by
  cases hgrow with
  | reused => exact .refl hm
  | @made n base => exact overwrites_addRegion hm base _ byte
  | serialsOut => exact .refl hm
  | noBlock => exact .refl hm

/-- **A request writes what it hands out**, if the stack overwrites, and nothing else. -/
theorem Serves.overwrites {out : Except Fault (Option Nat)} (hp : p.Sound gap)
    (hm : h.memory.Whole) (hset : Settled gap s h) (hserves : Serves p r s h (out, s', h')) :
    Overwrites p (fun n o => s.fill = true ∧ s'.Handed r out n o) Config.newPattern h.memory
      h'.memory := by
  cases hserves with
  | misaligned =>
    apply (Overwrites.refl hm).congr
    simp [Handed]
  | bumped hbump => exact hbump.overwrites hm hset
  | oversized =>
    apply (Overwrites.refl hm).congr
    simp [Handed]
  | starved hspan hroom hgrow =>
    apply (hgrow.overwrites hm _).congr
    simp [Handed]
  | full hspan hroom hgrow =>
    apply (hgrow.overwrites hm _).congr
    simp [Handed]
  | @grown required s₁ h₁ _ hspan hroom hgrow hbump =>
    have hgrown := hgrow.overwrites hm Config.newPattern
    have hset₁ := (hgrow.moves hp hset).settled
    obtain ⟨blk, others, n, rfl, -⟩ := hgrow.push_eq
    apply (hgrown.trans (hbump.overwrites hgrown.whole hset₁)).congr
    intro n o
    rw [false_or]
    rfl

/-! ## What an unwind writes -/

/-- Byte `o` of region `n` lies below the cursor of an active block. -/
def Takes (s : Stack) (n o : Nat) : Prop := ∃ blk ∈ s.active, blk.region = n ∧ o < blk.cursor

/-- The byte is taken in `s` and not in `s'`. -/
def Lost (s s' : Stack) (n o : Nat) : Prop := s.Takes n o ∧ ¬s'.Takes n o

theorem takes_iff {n o : Nat} : s.Takes n o ↔
    (s.current.region = n ∧ o < s.current.cursor) ∨
      ∃ blk ∈ s.below, blk.region = n ∧ o < blk.cursor := by
  simp [Takes, active]

/-- The region of the current block is that of no block below it. -/
theorem Lodged.current_ne {m : Memory} (hl : Lodged m s) {blk : Block} (hblk : blk ∈ s.below) :
    blk.region ≠ s.current.region := by
  have hdistinct := hl.distinct
  rw [regions, blocks, active, List.cons_append, List.map_cons] at hdistinct
  intro heq
  apply (List.nodup_cons.1 hdistinct).1
  rw [← heq]
  exact List.mem_map_of_mem (List.mem_append_left _ hblk)

/-- An active block and a cached one have regions of their own. -/
theorem Lodged.cached_ne {m : Memory} (hl : Lodged m s) {blk other : Block}
    (hblk : blk ∈ s.active) (hother : other ∈ s.cache) : blk.region ≠ other.region := by
  have hdistinct := hl.distinct
  rw [regions, blocks, List.map_append] at hdistinct
  exact (List.nodup_append.1 hdistinct).2.2 _ (List.mem_map_of_mem hblk) _
    (List.mem_map_of_mem hother)

/-- When the current block is cut back to a cursor, what lies beyond it in the block is lost. -/
theorem lost_iff {m : Memory} (hl : Lodged m s) {cursor n o : Nat}
    (htakes : s'.Takes n o ↔ (s.current.region = n ∧ o < cursor) ∨
      ∃ blk ∈ s.below, blk.region = n ∧ o < blk.cursor) :
    s.Lost s' n o ↔ n = s.current.region ∧ cursor ≤ o ∧ o < s.current.cursor := by
  rw [Lost, htakes, takes_iff]
  constructor
  · rintro ⟨htaken, hnot⟩
    rcases htaken with ⟨rfl, hlt⟩ | hbelow
    · refine ⟨rfl, ?_, hlt⟩
      by_contra hnear
      exact hnot (Or.inl ⟨rfl, by omega⟩)
    · exact absurd (Or.inr hbelow) hnot
  · rintro ⟨rfl, hlow, hhigh⟩
    refine ⟨Or.inl ⟨rfl, hhigh⟩, ?_⟩
    rintro (⟨-, hlt⟩ | ⟨blk, hblk, hregion, -⟩)
    · omega
    · exact hl.current_ne hblk hregion

/-- What is lost in two goes, where nothing comes back. -/
theorem lost_trans {s₁ s₂ s₃ : Stack} (hfirst : ∀ n o, s₂.Takes n o → s₁.Takes n o)
    (hsecond : ∀ n o, s₃.Takes n o → s₂.Takes n o) (n o : Nat) :
    s₁.Lost s₃ n o ↔ s₁.Lost s₂ n o ∨ s₂.Lost s₃ n o := by
  have hback := hfirst n o
  have hback' := hsecond n o
  unfold Lost
  tauto

theorem takes_of_dropped {k n o : Nat} (hk : k ≤ s.below.length)
    (htakes : (dropped k s).Takes n o) : s.Takes n o := by
  obtain ⟨blk, hblk, hrest⟩ := htakes
  rw [active_dropped hk] at hblk
  exact ⟨blk, List.mem_of_mem_drop hblk, hrest⟩

/-- Dropping the current block writes what it had taken. -/
theorem dropCurrent_overwrites (hm : h.memory.Whole) (hset : Settled gap s h)
    (hbelow : s.below ≠ []) :
    Overwrites p (fun n o => s.fill = true ∧ s.Lost s.dropCurrent n o) Config.freedPattern h.memory
      (s.clearedCurrent h).memory := by
  have hin : 0 + s.current.cursor ≤ s.current.capacity := by
    rw [Nat.zero_add]
    exact hset.wellFormed.current_le
  have hpainted := overwrites_painted (p := p) hm hset.lodged hin Config.freedPattern
  have hcleared : Overwrites p (fun n o => s.fill = true ∧ n = s.current.region ∧ 0 ≤ o ∧
      o < 0 + s.current.cursor) Config.freedPattern h.memory (s.clearedCurrent h).memory := by
    unfold clearedCurrent
    cases s.retention with
    | cache => exact hpainted
    | release =>
      apply (hpainted.trans (overwrites_freeRegion hpainted.whole s.current.region _)).congr
      simp
  apply hcleared.congr
  intro n o
  have htakes : s.dropCurrent.Takes n o ↔ (s.current.region = n ∧ o < 0) ∨
      ∃ blk ∈ s.below, blk.region = n ∧ o < blk.cursor := by
    rw [Takes, active_dropCurrent hbelow]
    simp
  rw [lost_iff hset.lodged htakes, Nat.zero_add]

/-- Dropping blocks writes what they had taken. -/
theorem dropped_overwrites {k : Nat} (hm : h.memory.Whole) (hset : Settled gap s h)
    (hk : k ≤ s.below.length) :
    Overwrites p (fun n o => s.fill = true ∧ s.Lost (dropped k s) n o) Config.freedPattern h.memory
      (cleared k s h).memory := by
  induction k generalizing s h with
  | zero =>
    apply (Overwrites.refl hm).congr
    intro n o
    simp [dropped, Lost]
  | succ k ih =>
    have hlength := s.length_below_dropCurrent
    have hne := List.ne_nil_of_length_pos (Nat.zero_lt_of_lt hk)
    have hfirst := dropCurrent_overwrites (p := p) hm hset hne
    have hrest := ih hfirst.whole (dropCurrent_moves hset hne).settled (by omega)
    apply (hfirst.trans hrest).congr
    intro n o
    have hback : ∀ n o, s.dropCurrent.Takes n o → s.Takes n o := fun n o =>
      takes_of_dropped (k := 1) (by omega)
    rw [dropped, lost_trans hback (fun n o => takes_of_dropped (by omega)), fill_dropCurrent]
    tauto

/-- Moving the cursor back writes what it leaves behind. -/
theorem rewound_overwrites (hm : h.memory.Whole) (hl : Lodged h.memory s)
    (hle : s.current.cursor ≤ s.current.capacity) (offset : Nat) :
    Overwrites p (fun n o => s.fill = true ∧ s.Lost (s.rewound offset) n o) Config.freedPattern
      h.memory (s.painted h (min offset s.current.cursor)
        (s.current.cursor - min offset s.current.cursor) Config.freedPattern).memory := by
  have hback : min offset s.current.cursor ≤ s.current.cursor := Nat.min_le_right _ _
  apply (overwrites_painted hm hl (by omega) Config.freedPattern).congr
  intro n o
  have htakes : (s.rewound offset).Takes n o ↔
      (s.current.region = n ∧ o < min offset s.current.cursor) ∨
        ∃ blk ∈ s.below, blk.region = n ∧ o < blk.cursor := takes_iff
  rw [lost_iff hl htakes, Nat.add_sub_cancel' hback]

/-- What is taken with the cursor moved back was taken before. -/
theorem takes_of_rewound {offset n o : Nat} (htakes : (s.rewound offset).Takes n o) :
    s.Takes n o := by
  rw [takes_iff]
  rcases takes_iff.1 htakes with ⟨hregion, hlt⟩ | hbelow
  · exact Or.inl ⟨hregion, Nat.lt_of_lt_of_le hlt (Nat.min_le_right _ _)⟩
  · exact Or.inr hbelow

/-- What is taken after an unwind was taken before. -/
theorem takes_of_unwound {m : Marker} {n o : Nat} (htakes : (s.unwound m).Takes n o) :
    s.Takes n o :=
  takes_of_dropped (s.surplus_le m.depth) (takes_of_rewound htakes)

/-- **An unwind writes what it takes back**, if the stack overwrites, and nothing else. -/
theorem unwound_overwrites (hm : h.memory.Whole) (hset : Settled gap s h) (m : Marker) :
    Overwrites p (fun n o => s.fill = true ∧ s.Lost (s.unwound m) n o) Config.freedPattern h.memory
      (s.swept m h).memory := by
  have hlessened : (s.lessened m.depth h).memory = (cleared (s.surplus m.depth) s h).memory := by
    unfold lessened
    split <;> rfl
  have hdrop := dropped_overwrites (p := p) hm hset (s.surplus_le m.depth)
  have hset' := (dropped_moves hset (s.surplus_le m.depth)).settled
  rw [← hlessened] at hdrop
  have hl : Lodged (s.lessened m.depth h).memory (dropped (s.surplus m.depth) s) := by
    rw [hlessened]
    exact hset'.lodged
  have hrewound := rewound_overwrites (p := p) hdrop.whole hl hset'.wellFormed.current_le m.offset
  apply (hdrop.trans hrewound).congr
  intro n o
  obtain ⟨current, below, cache, capacity, heq⟩ := dropped_eq (s.surplus m.depth) s
  have hfill : (dropped (s.surplus m.depth) s).fill = s.fill := by rw [heq]
  have hlost : s.Lost (s.unwound m) n o
      ↔ s.Lost ((dropped (s.surplus m.depth) s).rewound m.offset) n o := Iff.rfl
  rw [hlost, lost_trans (fun n o => takes_of_dropped (s.surplus_le m.depth))
    (fun n o => takes_of_rewound), hfill]
  tauto

/-! ## What any change writes -/

/-- What a stack was told at its making it keeps. -/
theorem Change.settings {known : Marker → Prop} (hchange : Change p known s h s' h') :
    s'.fill = s.fill ∧ s'.retention = s.retention := by
  cases hchange with
  | still => exact ⟨rfl, rfl⟩
  | served hserves =>
    refine hserves.keeps (P := fun s' _ => s'.fill = s.fill ∧ s'.retention = s.retention)
      ⟨rfl, rfl⟩ ?_ ?_
    · intro required out s₁ h₁ hgrow
      cases out with
      | ok u =>
        obtain ⟨blk, others, n, rfl, -⟩ := hgrow.push_eq
        exact ⟨rfl, rfl⟩
      | error f => rcases hgrow.of_error with rfl | ⟨n, -, rfl⟩ <;> exact ⟨rfl, rfl⟩
    · intro s₁ h₁ out s₂ h₂ hsame hbump
      cases hbump <;> exact hsame
  | @unwound m =>
    obtain ⟨current, below, cache, capacity, outstanding, heq⟩ := unwound_eq m s
    rw [heq]
    exact ⟨rfl, rfl⟩
  | shrunk => exact ⟨rfl, rfl⟩

/-- Reports, trimmings and the end of a stack free regions at most. -/
theorem withoutBlocks_overwrites (hm : h.memory.Whole) (blks : List Block) (byte : UInt8) :
    Overwrites p (fun _ _ => False) byte h.memory (h.withoutBlocks blks).memory := by
  induction blks generalizing h with
  | nil => exact .refl hm
  | cons blk rest ih =>
    have hfirst := overwrites_freeRegion (p := p) hm blk.region byte
    apply (hfirst.trans (ih (h := h.withoutRegion blk.region) hfirst.whole)).congr
    simp

/-- Trimming the cache writes nothing. -/
theorem shrunk_overwrites (hm : h.memory.Whole) (s : Stack) : Overwrites p (fun _ _ => False) 0
    h.memory ((s.toldShrunk h).withoutBlocks s.cache.reverse).memory := by
  have htold : (s.toldShrunk h).memory = h.memory := by
    unfold toldShrunk
    split <;> rfl
  rw [← htold]
  apply withoutBlocks_overwrites
  rw [htold]
  exact hm

/-- The end of a stack writes nothing. -/
theorem discard_overwrites (hm : h.memory.Whole) (p : Platform) (s : Stack) :
    Overwrites p (fun _ _ => False) 0 h.memory
      (Action.after (Stack.discard p) (s, h)).2.2.memory := by
  obtain ⟨out, h₁, -, ⟨hmemory, -⟩, ⟨f, -, -, hrun⟩ | ⟨-, hrun⟩⟩ := discard_cases p s h
  · rw [hrun, hmemory]
    exact .refl hm
  · rw [hrun, ← hmemory]
    apply withoutBlocks_overwrites
    rw [hmemory]
    exact hm

/-- `Treats p s h s' h'`: what is taken before and after is not written, nor is what is taken neither
    before nor after; and what is lost is overwritten, or left alone by a stack that does not. -/
structure Treats (p : Platform) (s : Stack) (h : Host) (s' : Stack) (h' : Host) : Prop where
  whole : h'.memory.Whole
  ages : h.memory.Ages h'.memory
  kept : ∀ n o, (s.Takes n o ↔ s'.Takes n o) → h'.memory.byteAt p n o = h.memory.byteAt p n o
  lost : s.fill = true → ∀ n o, s.Lost s' n o → h'.memory.byteAt p n o = Config.freedPattern
  plain : s.fill = false → ∀ n o, h'.memory.byteAt p n o = h.memory.byteAt p n o

theorem Carries.takes (hcarries : s.Carries s') {n o : Nat} (htakes : s.Takes n o) :
    s'.Takes n o := by
  obtain ⟨blk, hblk, hregion, hlt⟩ := htakes
  obtain ⟨blk', hblk', hregion', -, hle⟩ := hcarries blk hblk
  exact ⟨blk', hblk', hregion'.trans hregion, Nat.lt_of_lt_of_le hlt hle⟩

/-- What a request has been given is taken now, and was not before. -/
theorem Serves.handed {out : Except Fault (Option Nat)} (hp : p.Sound gap) (hset : Settled gap s h)
    (hserves : Serves p r s h (out, s', h')) {n o : Nat} (hhanded : s'.Handed r out n o) :
    s'.Takes n o ∧ ¬s.Takes n o := by
  obtain ⟨address, rfl, rfl, hlow, hhigh⟩ := hhanded
  have hfresh := hserves.fresh hp hset
  have hlimit := hfresh.limit_le
  constructor
  · exact ⟨s'.current, s'.current_mem_active, rfl, by omega⟩
  · rintro ⟨blk, hblk, hregion, hlt⟩
    have habove := hfresh.above blk hblk hregion
    obtain ⟨blk', hblk', hregion', hbase, -⟩ := hserves.carries blk hblk
    have hsame := (hserves.moves hp hset).settled.lodged.eq_of_region_eq hblk'
      s'.current_mem_active (hregion'.trans hregion)
    rw [hsame] at hbase
    omega

/-- **Every change treats bytes alike.** -/
theorem Change.treats (hp : p.Sound gap) (hm : h.memory.Whole) (hset : Settled gap s h)
    {known : Marker → Prop} (hchange : Change p known s h s' h') : Treats p s h s' h' := by
  have hnone : s'.active = s.active → Overwrites p (fun _ _ => False) 0 h.memory h'.memory →
      Treats p s h s' h' := by
    intro hsame hwrites
    have hbytes : ∀ n o, h'.memory.byteAt p n o = h.memory.byteAt p n o := fun n o =>
      hwrites.outside n o not_false
    refine ⟨hwrites.whole, hwrites.ages, fun n o _ => hbytes n o, ?_, fun _ => hbytes⟩
    rintro - n o ⟨htakes, hnot⟩
    refine absurd ?_ hnot
    rw [Takes, hsame]
    exact htakes
  cases hchange with
  | still hstill =>
    refine hnone rfl ?_
    rw [hstill.1]
    exact .refl hm
  | served hserves =>
    have hwrites := hserves.overwrites hp hm hset
    refine ⟨hwrites.whole, hwrites.ages, ?_, ?_, ?_⟩
    · intro n o hsame
      apply hwrites.outside
      rintro ⟨-, hhanded⟩
      obtain ⟨htakes, hnot⟩ := hserves.handed hp hset hhanded
      exact hnot (hsame.2 htakes)
    · rintro - n o ⟨htakes, hnot⟩
      exact absurd (hserves.carries.takes htakes) hnot
    · intro hfill n o
      apply hwrites.outside
      simp [hfill]
  | @unwound m hknown hok =>
    have hwrites := unwound_overwrites (p := p) hm hset m
    refine ⟨hwrites.whole, hwrites.ages, ?_, ?_, ?_⟩
    · intro n o hsame
      apply hwrites.outside
      rintro ⟨-, htakes, hnot⟩
      exact hnot (hsame.1 htakes)
    · intro hfill n o hlost
      exact hwrites.inside n o ⟨hfill, hlost⟩
    · intro hfill n o
      apply hwrites.outside
      simp [hfill]
  | shrunk => exact hnone rfl (shrunk_overwrites hm s)

end Stack

end StackArena
