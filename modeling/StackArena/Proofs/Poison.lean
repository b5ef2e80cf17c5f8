/-
  Memory under clients that write.

  Between the calls, clients write bytes inside their live grants (`Deed.write`).  Whatever they do,
  the bytes of a grant are only ever changed by a write to it while it lives; and in a stack that
  overwrites, what lies above the cursors and in the cache tells of its past: a byte that was ever
  taken holds the pattern of released memory, and any other one what its region was made with.

  1. **Deeds** — calls and writes, one after the other (`enact`); the worlds stay in good order
     (`Tended`).
  2. **One deed** — what it does to the bytes of the regions of one stack (`Passes`).
  3. **Runs** — by induction on the deeds, what lies free holds what its past says
     (`spent_bytes`); with what a single operation writes this is `bytes_accounted`.
-/
import StackArena.Proofs.Contents

namespace StackArena

/-! ## Bytes of grants -/

namespace Host

/-- Byte `offset` of a grant. -/
def peek (p : Platform) (h : Host) (g : Grant) (offset : Nat) : UInt8 :=
  match h.memory.extent? g.region with
  | some x => h.memory.byteAt p g.region (g.address + offset - x.base)
  | none => 0

/-- Byte `offset` of a grant is written. -/
def poke (g : Grant) (offset : Nat) (byte : UInt8) (h : Host) : Host :=
  match h.memory.extent? g.region with
  | some x => h.filled g.region (g.address + offset - x.base) 1 byte
  | none => h

end Host

/-- `Deed`: one thing that clients do, with calls or without. -/
inductive Deed where
  | call (c : Call)
  /-- Write a byte inside a live grant of a stack; the grants go from the latest on. -/
  | write (slot k offset : Nat) (byte : UInt8)

namespace World

open Stack Memory

/-- A byte is written inside a live grant, if there is one. -/
def write (slot k offset : Nat) (byte : UInt8) (w : World) : World :=
  match (w.at? slot).bind fun t => t.live[k]? with
  | some g =>
    if offset < g.request.size then { w with host := w.host.poke g offset byte } else w
  | none => w

/-- One deed. -/
def deed (p : Platform) (w : World) : Deed → World
  | .call c => w.step p c
  | .write slot k offset byte => w.write slot k offset byte

/-- Deeds one after the other. -/
def enact (p : Platform) (w : World) (ds : List Deed) : World := ds.foldl (deed p) w

theorem enact_concat (p : Platform) (w : World) (ds : List Deed) (d : Deed) :
    enact p w (ds ++ [d]) = (enact p w ds).deed p d := by
  rw [enact, List.foldl_append]
  rfl

variable {p : Platform} {gap i : Nat} {w w' : World} {t t' : Tenancy}

/-! ## Worlds in good order -/

/-- `Tended gap w`: a sound world with tidy stacks, in memory that is whole. -/
structure Tended (gap : Nat) (w : World) : Prop where
  sound : w.Sound gap
  tidy : ∀ i t, w.at? i = some t → t.Tidy
  whole : w.host.memory.Whole

theorem Tended.initial (gap : Nat) : Tended gap initial :=
  ⟨.initial gap, fun i t hat => absurd hat (not_at?_initial i t), .empty⟩

/-- What a stack of a call does to memory. -/
theorem act_treats (hp : p.Sound gap) (hw : w.Tended gap) (hat : w.at? i = some t) (op : Op) :
    Treats p t.stack w.host (t.act p w.markers w.host op).1.stack
      (t.act p w.markers w.host op).2 :=
  (Tenancy.act_change hp (hw.sound.settled i t hat) w.markers op).treats hp hw.whole
    (hw.sound.settled i t hat)

/-- A call keeps a world in good order, and its regions on record. -/
theorem Tended.step (hp : p.Sound gap) (hw : w.Tended gap) (c : Call) :
    (w.step p c).Tended gap ∧ w.host.memory.Ages (w.step p c).host.memory := by
  have hsound := hw.sound.step hp c
  have hstep := step_spec p w c
  generalize w.step p c = w' at hsound hstep ⊢
  cases hstep with
  | idle => exact ⟨hw, .refl _⟩
  | hosted hmemory hlast =>
    refine ⟨⟨hsound, hw.tidy, ?_⟩, ?_⟩
    · show Memory.Whole _
      rw [hmemory]
      exact hw.whole
    · show Memory.Ages _ _
      rw [hmemory]
      exact .refl _
  | @made c base hplace =>
    have hwrites := overwrites_addRegion (p := p) hw.whole base (Block.layoutOf c.initialBlock) 0
    refine ⟨⟨hsound, ?_, hwrites.whole⟩, hwrites.ages⟩
    exact forall_at?_enroll hw.tidy (Tenancy.Tidy.new _)
  | @operated i op t hat =>
    have htreats := act_treats hp hw hat op
    have hset := hw.sound.settled i t hat
    refine ⟨⟨hsound, ?_, htreats.whole⟩, htreats.ages⟩
    refine forall_at?_set (lt_of_at? hat) ?_ fun j u _ hu => hw.tidy j u hu
    exact (Tenancy.act_turn hp hset w.markers op).tidy hp hset (hw.tidy i t hat)
  | @discarded i t hat =>
    have hwrites := discard_overwrites hw.whole p t.stack
    refine ⟨⟨hsound, ?_, hwrites.whole⟩, hwrites.ages⟩
    intro j u hu
    exact hw.tidy j u (at?_of_emptied (lt_of_at? hat) hu).2

/-- A live grant lies in a block that takes all its bytes. -/
theorem Tended.grant (hw : w.Tended gap) (hat : w.at? i = some t) {g : Grant} (hg : g ∈ t.live) :
    ∃ blk ∈ t.stack.active, blk.region = g.region ∧ g.LiesIn blk ∧
      w.host.memory.extent? g.region = some blk.extent ∧ blk.cursor ≤ blk.capacity := by
  obtain ⟨blk, hblk, hregion, hin⟩ := (hw.tidy i t hat).placed g hg
  have hset := hw.sound.settled i t hat
  have hmem := mem_blocks_of_active hblk
  refine ⟨blk, hblk, hregion, hin, ?_, hset.wellFormed.cursor_le blk hmem⟩
  rw [← hregion]
  exact hset.lodged.housed blk hmem

/-- A write inside a live grant writes a byte that the stack takes. -/
theorem poke_overwrites (hw : w.Tended gap) (hat : w.at? i = some t) {g : Grant} (hg : g ∈ t.live)
    {offset : Nat} (hoffset : offset < g.request.size) (byte : UInt8) :
    ∃ P : Nat → Nat → Prop, (∀ n o, P n o → t.stack.Takes n o) ∧
      Overwrites p P byte w.host.memory (w.host.poke g offset byte).memory := by
  obtain ⟨blk, hblk, hregion, ⟨hlow, hhigh⟩, hextent, hle⟩ := hw.grant hat hg
  have hlimit : g.limit = g.address + g.request.size := rfl
  have hsize : blk.extent.layout.size = blk.capacity := rfl
  have hbase : blk.extent.base = blk.base := rfl
  refine ⟨fun n o => n = g.region ∧ g.address + offset - blk.base ≤ o ∧
    o < g.address + offset - blk.base + 1, ?_, ?_⟩
  · rintro n o ⟨rfl, -, hlt⟩
    exact ⟨blk, hblk, hregion, by omega⟩
  · rw [Host.poke, hextent]
    exact overwrites_fill hw.whole hextent (by omega) byte

/-- A write to a live grant is made, or nothing is. -/
theorem write_cases (w : World) (slot k offset : Nat) (byte : UInt8) :
    w.write slot k offset byte = w ∨ ∃ t g, w.at? slot = some t ∧ g ∈ t.live ∧
      offset < g.request.size ∧
      w.write slot k offset byte = { w with host := w.host.poke g offset byte } := by
  unfold write
  cases hfound : (w.at? slot).bind fun t => t.live[k]? with
  | none => exact Or.inl rfl
  | some g =>
    obtain ⟨t, hat, hg⟩ := Option.bind_eq_some_iff.1 hfound
    by_cases hoffset : offset < g.request.size
    · refine Or.inr ⟨t, g, hat, List.mem_of_getElem? hg, hoffset, ?_⟩
      simp only [if_pos hoffset]
    · refine Or.inl ?_
      simp only [if_neg hoffset]

theorem poke_extents (h : Host) (g : Grant) (offset : Nat) (byte : UInt8) (n : Nat) :
    (h.poke g offset byte).memory.extent? n = h.memory.extent? n ∧
      (h.poke g offset byte).lastId = h.lastId := by
  unfold Host.poke
  cases h.memory.extent? g.region with
  | none => exact ⟨rfl, rfl⟩
  | some x => exact ⟨h.extent?_filled _ _ _ _ _, rfl⟩

/-- Bytes are nothing to stacks. -/
theorem Sound.rewritten (hw : w.Sound gap) {h : Host} (hextent : ∀ n,
    h.memory.extent? n = w.host.memory.extent? n) (hlast : h.lastId = w.host.lastId) :
    Sound gap { w with host := h } := by
  have hm : h.memory.Spaced gap := hw.spaced.congr hextent
  refine ⟨hm, ?_, hw.apart, ?_, hw.distinct⟩
  · intro i t hat
    exact (hw.settled i t hat).of_frame hm fun n x _ hx => (hextent n).trans hx
  · intro i t hat
    show t.stack.id.value ≤ h.lastId
    rw [hlast]
    exact hw.counted i t hat

/-- **A deed keeps a world in good order**, and its regions on record. -/
theorem Tended.deed (hp : p.Sound gap) (hw : w.Tended gap) (d : Deed) :
    (w.deed p d).Tended gap ∧ w.host.memory.Ages (w.deed p d).host.memory := by
  cases d with
  | call c => exact hw.step hp c
  | write slot k offset byte =>
    rw [World.deed]
    rcases w.write_cases slot k offset byte with heq | ⟨t, g, hat, hg, hoffset, heq⟩
    · rw [heq]
      exact ⟨hw, .refl _⟩
    · rw [heq]
      obtain ⟨P, -, hwrites⟩ := poke_overwrites (p := p) hw hat hg hoffset byte
      have hpoke := poke_extents w.host g offset byte
      exact ⟨⟨hw.sound.rewritten (fun n => (hpoke n).1) (hpoke 0).2, hw.tidy, hwrites.whole⟩,
        hwrites.ages⟩

/-- Deeds keep a world in good order, its regions on record, and its slots. -/
theorem Tended.enact (hp : p.Sound gap) (hw : w.Tended gap) (ds : List Deed) :
    (enact p w ds).Tended gap ∧ w.host.memory.Ages (enact p w ds).host.memory ∧
      w.slots.length ≤ (enact p w ds).slots.length := by
  induction ds generalizing w with
  | nil => exact ⟨hw, .refl _, Nat.le_refl _⟩
  | cons d ds ih =>
    obtain ⟨hfirst, hages⟩ := hw.deed hp d
    have hslots : w.slots.length ≤ (w.deed p d).slots.length := by
      cases d with
      | call c => exact length_slots_step p w c
      | write slot k offset byte =>
        rw [World.deed]
        rcases w.write_cases slot k offset byte with heq | ⟨t, g, -, -, -, heq⟩
        · rw [heq]
        · rw [heq]
    obtain ⟨hrest, hages', hslots'⟩ := ih hfirst
    exact ⟨hrest, hages.trans hages', Nat.le_trans hslots hslots'⟩

/-! ## One deed, and the bytes of one stack -/

/-- `Passes p s h s' h'`: what a deed does to the bytes of the regions of a stack.  What lies free
    stays as it is, and what is lost is overwritten if the stack does that. -/
structure Passes (p : Platform) (s : Stack) (h : Host) (s' : Stack) (h' : Host) : Prop where
  fill_eq : s'.fill = s.fill
  owned : ∀ n ∈ s'.regions, n ∈ s.regions ∨ h.memory.extent? n = none
  free : ∀ n ∈ s'.regions, ∀ o, ¬s.Takes n o → ¬s'.Takes n o →
    h'.memory.byteAt p n o = h.memory.byteAt p n o
  lost : s.fill = true → ∀ n o, s.Lost s' n o → h'.memory.byteAt p n o = Config.freedPattern

/-- What is taken lies in a region of the stack. -/
theorem mem_regions_of_takes {s : Stack} {n o : Nat} (htakes : s.Takes n o) : n ∈ s.regions := by
  obtain ⟨blk, hblk, rfl, -⟩ := htakes
  exact mem_regions_of_block (mem_blocks_of_active hblk)

/-- Nothing happens to a stack whose free bytes stay as they are. -/
theorem Passes.of_free {s : Stack} {h h' : Host} (hfree : ∀ n ∈ s.regions, ∀ o, ¬s.Takes n o →
    h'.memory.byteAt p n o = h.memory.byteAt p n o) : Passes p s h s h' := by
  refine ⟨rfl, fun n hn => Or.inl hn, fun n hn o hnot _ => hfree n hn o hnot, ?_⟩
  rintro - n o ⟨htakes, hnot⟩
  exact absurd htakes hnot

/-- What happens to one stack of a world leaves the bytes of the other ones alone. -/
theorem act_bytes_elsewhere (hp : p.Sound gap) (hw : w.Tended gap) {j : Nat} {u : Tenancy}
    (hu : w.at? j = some u) (hat : w.at? i = some t) (hne : j ≠ i) (op : Op) {n : Nat}
    (hn : n ∈ t.stack.regions) (o : Nat) :
    (u.act p w.markers w.host op).2.memory.byteAt p n o = w.host.memory.byteAt p n o := by
  have hforeign := hw.sound.apart i j t u hat hu (Ne.symm hne) n hn
  have hmoves := act_moves hp hw.sound hu op
  apply (act_treats hp hw hu op).kept
  constructor
  · intro htakes
    exact absurd (mem_regions_of_takes htakes) hforeign
  · intro htakes
    rcases hmoves.owned n (mem_regions_of_takes htakes) with hmine | hnew
    · exact absurd hmine hforeign
    · exact absurd hn ((hw.sound.settled i t hat).lodged.notMem_of_extent?_none hnew)

/-- **A call, and the bytes of one stack**: what is taken before and after stays as it is. -/
theorem step_passes (hp : p.Sound gap) (hw : w.Tended gap) {c : Call} (hat : w.at? i = some t)
    (hat' : (w.step p c).at? i = some t') :
    Passes p t.stack w.host t'.stack (w.step p c).host ∧
      ∀ n o, t.stack.Takes n o → t'.stack.Takes n o →
        (w.step p c).host.memory.byteAt p n o = w.host.memory.byteAt p n o := by
  have hunchanged : ∀ {h : Host}, (∀ n ∈ t.stack.regions, ∀ o,
      h.memory.byteAt p n o = w.host.memory.byteAt p n o) →
      Passes p t.stack w.host t.stack h ∧ ∀ n o, t.stack.Takes n o → t.stack.Takes n o →
        h.memory.byteAt p n o = w.host.memory.byteAt p n o := by
    intro h hsame
    refine ⟨.of_free fun n hn o _ => hsame n hn o, ?_⟩
    intro n o htakes _
    exact hsame n (mem_regions_of_takes htakes) o
  have hstep := step_spec p w c
  generalize w.step p c = w' at hstep hat' ⊢
  cases hstep with
  | idle =>
    obtain rfl := Option.some.inj (hat.symm.trans hat')
    exact hunchanged fun _ _ _ => rfl
  | hosted hmemory =>
    obtain rfl := Option.some.inj (hat.symm.trans hat')
    apply hunchanged
    intro n _ o
    rw [hmemory]
  | @made c base hplace =>
    have hwrites := overwrites_addRegion (p := p) hw.whole base (Block.layoutOf c.initialBlock) 0
    rcases at?_enroll.1 hat' with hold | ⟨hnew, -⟩
    · obtain rfl := Option.some.inj (hat.symm.trans hold)
      exact hunchanged fun n _ o => hwrites.outside n o not_false
    · have hlt := lt_of_at? hat
      omega
  | @operated j op u hu =>
    rcases (at?_set (lt_of_at? hu)).1 hat' with ⟨rfl, heq⟩ | ⟨hne, hold⟩
    · obtain rfl := Option.some.inj (hat.symm.trans hu)
      cases heq
      have htreats := act_treats hp hw hat op
      have hmoves := act_moves hp hw.sound hat op
      have hsettings := (Tenancy.act_change hp (hw.sound.settled i t hat) w.markers op).settings
      refine ⟨⟨hsettings.1, hmoves.owned, ?_, htreats.lost⟩, ?_⟩
      · intro n _ o hnot hnot'
        exact htreats.kept n o ⟨fun htakes => absurd htakes hnot, fun htakes => absurd htakes hnot'⟩
      · intro n o htakes htakes'
        exact htreats.kept n o ⟨fun _ => htakes', fun _ => htakes⟩
    · obtain rfl := Option.some.inj (hat.symm.trans hold)
      exact hunchanged fun n hn o => act_bytes_elsewhere hp hw hu hat (Ne.symm hne) op hn o
  | @discarded j u hu =>
    obtain rfl := Option.some.inj (hat.symm.trans (at?_of_emptied (lt_of_at? hu) hat').2)
    have hwrites := discard_overwrites hw.whole p u.stack
    exact hunchanged fun n _ o => hwrites.outside n o not_false

/-- A write touches no free byte of any stack. -/
theorem write_passes (hw : w.Tended gap) {slot k offset : Nat} {byte : UInt8}
    (hat : w.at? i = some t) : Passes p t.stack w.host t.stack (w.write slot k offset byte).host := by
  apply Passes.of_free
  intro n hn o hnot
  rcases w.write_cases slot k offset byte with heq | ⟨u, g, hu, hg, hoffset, heq⟩
  · rw [heq]
  · obtain ⟨P, hinside, hwrites⟩ := poke_overwrites hw hu hg hoffset byte
    rw [heq]
    apply hwrites.outside
    intro hwritten
    have htakes := hinside n o hwritten
    by_cases hsame : slot = i
    · subst hsame
      obtain rfl := Option.some.inj (hat.symm.trans hu)
      exact hnot htakes
    · exact hw.sound.apart i slot t u hat hu (Ne.symm hsame) n hn (mem_regions_of_takes htakes)

/-- A stack that comes with a deed lies in one new region, to which nothing was written yet. -/
theorem deed_new (hw : w.Tended gap) {d : Deed} (hge : w.slots.length ≤ i)
    (hat' : (w.deed p d).at? i = some t') : ∃ n, t'.stack.regions = [n] ∧
      w.host.memory.extent? n = none ∧ ∀ o, (w.deed p d).host.memory.byteAt p n o = p.firstByte n o := by
  have hnone : ∀ u, w.at? i ≠ some u := by
    intro u hu
    have hlt := lt_of_at? hu
    omega
  cases d with
  | write slot k offset byte =>
    rw [deed] at hat'
    rcases w.write_cases slot k offset byte with heq | ⟨u, g, -, -, -, heq⟩
    · rw [heq] at hat'
      exact absurd hat' (hnone t')
    · rw [heq] at hat'
      exact absurd hat' (hnone t')
  | call c =>
    rw [deed] at hat' ⊢
    have hstep := step_spec p w c
    have hslots : ∀ {slot : Option Tenancy} {h : Host} {ms : List Marker} {j : Nat},
        (⟨h, w.slots.set j slot, ms⟩ : World).at? i ≠ some t' := by
      intro slot h ms j hset
      have hlt := lt_of_at? hset
      rw [List.length_set] at hlt
      omega
    generalize w.step p c = w' at hstep hat' ⊢
    cases hstep with
    | idle => exact absurd hat' (hnone t')
    | hosted => exact absurd hat' (hnone t')
    | @made c base hplace =>
      rcases at?_enroll.1 hat' with hold | ⟨-, rfl⟩
      · exact absurd hold (hnone t')
      · have hwrites := overwrites_addRegion (p := p) hw.whole base (Block.layoutOf c.initialBlock) 0
        have hnew := w.host.memory.extent?_nextRegion
        refine ⟨w.host.memory.nextRegion, rfl, hnew, ?_⟩
        intro o
        exact (hwrites.outside _ o not_false).trans (byteAt_of_none hnew o)
    | operated => exact absurd hat' hslots
    | discarded => exact absurd hat' hslots

/-! ## What free bytes tell -/

/-- `Spent p ds i n o`: at some point of the deeds, byte `o` of region `n` lay below the cursor of
    an active block of the stack in slot `i`. -/
def Spent (p : Platform) (ds : List Deed) (i n o : Nat) : Prop :=
  ∃ es, es <+: ds ∧ ∃ u, (enact p initial es).at? i = some u ∧ u.stack.Takes n o

theorem spent_concat_iff {ds : List Deed} {d : Deed} {n o : Nat} : Spent p (ds ++ [d]) i n o ↔
    Spent p ds i n o ∨
      ∃ u, (enact p initial (ds ++ [d])).at? i = some u ∧ u.stack.Takes n o := by
  constructor
  · rintro ⟨es, hes, hspent⟩
    rcases List.prefix_concat_iff.1 hes with rfl | hearlier
    · exact Or.inr hspent
    · exact Or.inl ⟨es, hearlier, hspent⟩
  · rintro (⟨es, hes, hspent⟩ | hnow)
    · exact ⟨es, hes.trans (List.prefix_append _ _), hspent⟩
    · exact ⟨_, List.prefix_rfl, hnow⟩

/-- What was spent lies in a slot and in a region that are on record. -/
theorem Spent.recorded (hp : p.Sound gap) {ds : List Deed} {n o : Nat} (hspent : Spent p ds i n o) :
    i < (enact p initial ds).slots.length ∧ (enact p initial ds).host.memory.extent? n ≠ none := by
  obtain ⟨es, ⟨rest, rfl⟩, u, hu, htakes⟩ := hspent
  have hw := ((Tended.initial gap).enact hp es).1
  obtain ⟨-, hages, hslots⟩ := hw.enact hp rest
  rw [enact, List.foldl_append]
  refine ⟨Nat.lt_of_lt_of_le (lt_of_at? hu) hslots, hages.ne_none ?_⟩
  obtain ⟨blk, hblk, hregion⟩ := List.mem_map.1 (mem_regions_of_takes htakes)
  rw [← hregion, (hw.sound.settled i u hu).lodged.housed blk hblk]
  nofun

/-- **Free bytes tell of the past.**  In a stack that overwrites, a byte of a block that lies at or
    above the cursor, or of a cached block, holds the pattern of released memory if it was ever
    taken, and else what it was made with. -/
theorem spent_bytes (hp : p.Sound gap) {ds : List Deed}
    (hat : (enact p initial ds).at? i = some t) (hfill : t.stack.fill = true) {n o : Nat}
    (hn : n ∈ t.stack.regions) (hfree : ¬t.stack.Takes n o) :
    (Spent p ds i n o → (enact p initial ds).host.memory.byteAt p n o = Config.freedPattern) ∧
      (¬Spent p ds i n o → (enact p initial ds).host.memory.byteAt p n o = p.firstByte n o) := by
  induction ds using List.reverseRecOn generalizing t n o with
  | nil => exact absurd hat (not_at?_initial i t)
  | append_singleton ds d ih =>
    have hw := ((Tended.initial gap).enact hp ds).1
    -- The byte is not taken now, so it was spent before, if ever.
    have hspent : Spent p (ds ++ [d]) i n o ↔ Spent p ds i n o := by
      rw [spent_concat_iff]
      constructor
      · rintro (hearlier | ⟨u, hu, htakes⟩)
        · exact hearlier
        · obtain rfl := Option.some.inj (hat.symm.trans hu)
          exact absurd htakes hfree
      · exact Or.inl
    rw [hspent]
    rw [enact_concat] at hat ⊢
    rcases Nat.lt_or_ge i (enact p initial ds).slots.length with hlt | hge
    · obtain ⟨u, hu, hpasses⟩ : ∃ u, (enact p initial ds).at? i = some u ∧
          Passes p u.stack (enact p initial ds).host t.stack
            ((enact p initial ds).deed p d).host := by
        cases d with
        | call c =>
          obtain ⟨u, hu, -⟩ := step_at? hlt hat
          exact ⟨u, hu, (step_passes hp hw hu hat).1⟩
        | write slot k offset byte =>
          have hsame : (enact p initial ds).at? i = some t := by
            rw [deed] at hat
            rcases (enact p initial ds).write_cases slot k offset byte with
              heq | ⟨_, _, -, -, -, heq⟩
            · rwa [heq] at hat
            · rwa [heq] at hat
          exact ⟨t, hsame, write_passes hw hsame⟩
      have hfill' : u.stack.fill = true := hpasses.fill_eq.symm.trans hfill
      rcases hpasses.owned n hn with hold | hnew
      · by_cases htakes : u.stack.Takes n o
        · refine ⟨fun _ => hpasses.lost hfill' n o ⟨htakes, hfree⟩, ?_⟩
          intro hnever
          exact absurd ⟨ds, List.prefix_rfl, u, hu, htakes⟩ hnever
        · rw [hpasses.free n hn o htakes hfree]
          exact ih hu hfill' hold htakes
      · have hnot : ¬u.stack.Takes n o := fun htakes =>
          (hw.sound.settled i u hu).lodged.notMem_of_extent?_none hnew
            (mem_regions_of_takes htakes)
        refine ⟨fun hearlier => absurd hnew (hearlier.recorded hp).2, fun _ => ?_⟩
        rw [hpasses.free n hn o hnot hfree]
        exact byteAt_of_none hnew o
    · obtain ⟨number, hregions, -, hzero⟩ := deed_new hw hge hat
      rw [hregions, List.mem_singleton] at hn
      subst hn
      refine ⟨?_, fun _ => hzero o⟩
      intro hearlier
      have hlt := (hearlier.recorded hp).1
      omega

/-- A grant that lives before and after a call keeps its bytes. -/
theorem peek_step (hp : p.Sound gap) (hw : w.Tended gap) {c : Call} (hat : w.at? i = some t)
    (hat' : (w.step p c).at? i = some t') {g : Grant} (hg : g ∈ t.live) (hg' : g ∈ t'.live)
    {o : Nat} (ho : o < g.request.size) : (w.step p c).host.peek p g o = w.host.peek p g o := by
  obtain ⟨hw', hages⟩ := hw.step hp c
  obtain ⟨blk, hblk, hregion, ⟨hlow, hhigh⟩, hextent, -⟩ := hw.grant hat hg
  obtain ⟨blk', hblk', hregion', ⟨-, hhigh'⟩, hextent', -⟩ := hw'.grant hat' hg'
  -- The region is where it was.
  obtain ⟨live, haged⟩ := hages g.region blk.extent hextent
  have hbase : blk'.base = blk.base :=
    congrArg Extent.base (Option.some.inj (hextent'.symm.trans haged))
  have hlimit : g.limit = g.address + g.request.size := rfl
  have hkept := (step_passes hp hw hat hat').2 g.region (g.address + o - blk.base)
    ⟨blk, hblk, hregion, by omega⟩ ⟨blk', hblk', hregion', by omega⟩
  rw [Host.peek, Host.peek, hextent, hextent']
  show Memory.byteAt p _ g.region (g.address + o - blk'.base) = _
  rw [hbase]
  exact hkept

/-- A request in any form writes what it hands out, if the stack overwrites. -/
theorem ask_overwrites {s s' : Stack} {h h' : Host} {form : Form} {r : Request}
    {out : Except Fault (Option Nat)} (hp : p.Sound gap) (hm : h.memory.Whole)
    (hset : Settled gap s h) (hasked : Action.after (form.ask p r) (s, h) = (out, s', h')) :
    Overwrites p (fun n o => s.fill = true ∧ s'.Handed ((form.request? r).getD r) out n o)
      Config.newPattern h.memory h'.memory := by
  have hends := ask_ends hp hset form r
  rw [hasked] at hends
  cases hends with
  | asked hrequest hserves =>
    rw [hrequest]
    exact hserves.overwrites hp hm hset
  | refused hnothing =>
    apply (Overwrites.refl hm).congr
    intro n o
    constructor
    · rintro ⟨-, address, hserved, -⟩
      exact absurd hserved (hnothing address)
    · exact False.elim

/-- **Every byte is accounted for.**  In every state that calls and writes of clients lead to, in
    either build and whatever markers the unwinds are given:
    1. a call leaves the bytes of every grant alone that lives before and after it;
    2. a request in any form writes what it hands out, all to the pattern of new memory, and nothing
       else;
    3. an unwind writes what was below the cursor of an active block and is not any more, all to the
       pattern of released memory, and nothing else;
    4. trimming, reporting and the end of a stack write nothing;
    5. of a stack that does not overwrite, no operation writes anything;
    6. in one that does, a byte at or above the cursor of an active block, or in a cached block, has
       the pattern of released memory if it was ever below the cursor, and else its first value. -/
theorem bytes_accounted (hp : p.Sound gap) {ds : List Deed} (hw : w = enact p initial ds)
    (hat : w.at? i = some t) :
    (∀ c t', (w.step p c).at? i = some t' → ∀ g ∈ t.live, g ∈ t'.live → ∀ o < g.request.size,
      (w.step p c).host.peek p g o = w.host.peek p g o) ∧
    (∀ (form : Form) r out s' h', Action.after (form.ask p r) (t.stack, w.host) = (out, s', h') →
      Overwrites p (fun n o => t.stack.fill = true ∧ s'.Handed ((form.request? r).getD r) out n o)
        Config.newPattern w.host.memory h'.memory) ∧
    (∀ m out s' h', Action.after (Stack.unwind p m) (t.stack, w.host) = (out, s', h') →
      Overwrites p (fun n o => t.stack.fill = true ∧ t.stack.Lost s' n o)
        Config.freedPattern w.host.memory h'.memory) ∧
    (∀ h', h' = (Action.after Stack.shrink (t.stack, w.host)).2.2 ∨
        h' = (Action.after (Stack.reportLeaks p) (t.stack, w.host)).2.2 ∨
        h' = (Action.after (Stack.discard p) (t.stack, w.host)).2.2 →
      Overwrites p (fun _ _ => False) 0 w.host.memory h'.memory) ∧
    (t.stack.fill = false → ∀ op n o,
      (t.act p w.markers w.host op).2.memory.byteAt p n o = w.host.memory.byteAt p n o) ∧
    (t.stack.fill = true → ∀ blk o,
      (blk ∈ t.stack.active ∧ blk.cursor ≤ o) ∨ blk ∈ t.stack.cache →
      (Spent p ds i blk.region o → w.host.memory.byteAt p blk.region o = Config.freedPattern) ∧
      (¬Spent p ds i blk.region o →
        w.host.memory.byteAt p blk.region o = p.firstByte blk.region o)) := by
  have htended : w.Tended gap := by
    rw [hw]
    exact ((Tended.initial gap).enact hp ds).1
  have hset := htended.sound.settled i t hat
  have hm := htended.whole
  refine ⟨?_, ?_, ?_, ?_, ?_, ?_⟩
  · intro c t' hat' g hg hg' o ho
    exact peek_step hp htended hat hat' hg hg' ho
  · intro form r out s' h' hasked
    exact ask_overwrites hp hm hset hasked
  · intro m out s' h' hrun
    rcases unwind_ends p m w.host hset.wellFormed with ⟨hdone, -⟩ | ⟨f, hstop, -⟩
    · cases hdone.symm.trans hrun
      exact unwound_overwrites hm hset m
    · cases hstop.symm.trans hrun
      apply (Overwrites.refl hm).congr
      rintro n o
      simp [Lost]
  · rintro h' (rfl | rfl | rfl)
    · rw [Action.after_of_ok (shrink_apply t.stack w.host)]
      exact shrunk_overwrites hm t.stack
    · obtain ⟨out, h', hrun, hmemory, -⟩ := reportLeaks_ends p t.stack w.host
      rw [hrun, hmemory]
      exact .refl hm
    · exact discard_overwrites hm p t.stack
  · intro hfill op n o
    exact (act_treats hp htended hat op).plain hfill n o
  · intro hfill blk o hblk
    have hmem : blk ∈ t.stack.blocks := by
      rcases hblk with ⟨hactive, -⟩ | hcache
      · exact mem_blocks_of_active hactive
      · exact mem_blocks_of_cache hcache
    have hfree : ¬t.stack.Takes blk.region o := by
      rintro ⟨other, hother, hregion, hlt⟩
      -- No other block of the stack has the region.
      have hsame := List.inj_on_of_nodup_map hset.lodged.distinct (mem_blocks_of_active hother)
        hmem hregion
      subst hsame
      rcases hblk with ⟨-, hle⟩ | hcache
      · omega
      · exact hset.lodged.cached_ne hother hcache rfl
    rw [hw]
    rw [hw] at hat
    exact spent_bytes hp hat hfill (mem_regions_of_block hmem) hfree

/-- A platform on which regions hold `0xAB` before anything is written to them. -/
def littered : Platform := { Session.platform .debug [] with scrap := fun _ => ⟨[(0xAB, 4096)]⟩ }

/-- Ten bytes, one of them written, and a block more; then all is released. -/
def writtenAndLeft : List Deed :=
  [.call (.make (.sized .debug 64)), .call (.on 0 (.allocate .plain ⟨10, 1⟩)), .write 0 0 3 7,
    .call (.on 0 (.allocate .plain ⟨100, 1⟩)), .call (.on 0 .unwindAll)]

/-- What was taken has the pattern of released memory, in the block that is left and in the one that
    was put by; the byte that a client wrote is no exception.  What was never taken is as it was. -/
theorem bytes_accounted_left :
    ∃ t, (enact littered initial writtenAndLeft).at? 0 = some t ∧
      t.stack.active.map Block.region = [0] ∧ t.stack.cache.map Block.region = [1] ∧
      (enact littered initial writtenAndLeft).host.memory.byteAt littered 0 3 = 0xDD ∧
      (enact littered initial writtenAndLeft).host.memory.byteAt littered 0 40 = 0xAB ∧
      (enact littered initial writtenAndLeft).host.memory.byteAt littered 1 99 = 0xDD := by
  have hsound : (Session.platform .debug []).Sound 1 :=
    Session.platform_sound .debug (by nofun) (by decide)
  have hp : littered.Sound 1 := ⟨hsound.aligned, hsound.bounded, hsound.apart⟩
  have hspent : ∀ k n o, ((enact littered initial (writtenAndLeft.take k)).at? 0).any (fun u =>
        u.stack.active.any fun blk => blk.region == n && decide (o < blk.cursor)) = true →
      Spent littered writtenAndLeft 0 n o := by
    intro k n o hall
    obtain ⟨u, hu, hany⟩ := (Option.any_eq_true _ _).1 hall
    obtain ⟨blk, hblk, hboth⟩ := List.any_eq_true.1 hany
    obtain ⟨hregion, hlt⟩ := Bool.and_eq_true_iff.1 hboth
    exact ⟨_, List.take_prefix k _, u, hu, blk, hblk, beq_iff_eq.1 hregion, of_decide_eq_true hlt⟩
  have hnever : ¬Spent littered writtenAndLeft 0 0 40 := by
    have hall : ∀ k < 6, ((enact littered initial (writtenAndLeft.take k)).at? 0).all (fun u =>
        u.stack.active.all fun blk => blk.region != 0 || decide (blk.cursor ≤ 40)) = true := by
      decide +kernel
    rintro ⟨es, hes, u, hu, blk, hblk, hregion, hlt⟩
    have hlength : es.length < 6 := Nat.lt_succ_of_le hes.length_le
    have hbound := hall _ hlength
    rw [← List.prefix_iff_eq_take.1 hes, hu, Option.all_some] at hbound
    have hblock := List.all_eq_true.1 hbound blk hblk
    rw [hregion, bne_self_eq_false, Bool.false_or, decide_eq_true_eq] at hblock
    omega
  have hend : ((enact littered initial writtenAndLeft).at? 0).any
      (fun t => t.stack.fill && decide (t.stack.active.map (fun blk => (blk.region, blk.cursor))
        = [(0, 0)]) && decide (t.stack.cache.map Block.region = [1])) = true := by
    decide +kernel
  obtain ⟨t, hat, hall⟩ := (Option.any_eq_true _ _).1 hend
  obtain ⟨hfirst, hcached⟩ := Bool.and_eq_true_iff.1 hall
  obtain ⟨hfill, hactive⟩ := Bool.and_eq_true_iff.1 hfirst
  have hcache := of_decide_eq_true hcached
  have hleft := of_decide_eq_true hactive
  have hbytes := (bytes_accounted hp rfl hat).2.2.2.2.2 hfill
  obtain ⟨blk, hblk, hpair⟩ := List.mem_map.1
    (hleft ▸ List.mem_singleton_self (0, 0) : (0, 0) ∈ t.stack.active.map _)
  obtain ⟨hregion, hcursor⟩ := Prod.mk.inj hpair
  have hfree : ∀ o, (blk ∈ t.stack.active ∧ blk.cursor ≤ o) ∨ blk ∈ t.stack.cache := fun o =>
    Or.inl ⟨hblk, hcursor ▸ Nat.zero_le o⟩
  obtain ⟨other, hother, hregion'⟩ := List.mem_map.1
    (hcache ▸ List.mem_singleton_self 1 : 1 ∈ t.stack.cache.map Block.region)
  refine ⟨t, hat, ?_, hcache, ?_, ?_, ?_⟩
  · have hmap := congrArg (List.map Prod.fst) hleft
    rw [List.map_map] at hmap
    exact hmap
  · have hbyte := (hbytes blk 3 (hfree 3)).1
    rw [hregion] at hbyte
    exact hbyte (hspent 2 0 3 (by decide +kernel))
  · have hbyte := (hbytes blk 40 (hfree 40)).2
    rw [hregion] at hbyte
    rw [hbyte hnever]
    decide
  · have hbyte := (hbytes other 99 (Or.inr hother)).1
    rw [hregion'] at hbyte
    exact hbyte (hspent 4 1 99 (by decide +kernel))

end World

end StackArena
