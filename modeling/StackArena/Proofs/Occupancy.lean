/-
  Live grants and the blocks they lie in.

  1. What one operation does to the active blocks: a request carries every one of them over, with
     its cursor where it was or further on, and what it serves starts at or after the old cursor;
     an unwind leaves blocks that were there, with cursors that are not further on.
  2. What one operation does to the live grants of its stack (`Tidy`): each lies below the cursor of
     an active block, at a multiple of its alignment, and they keep apart from one another.
  3. By induction on the run, the same of every stack of every reachable world, in either build and
     with any marker that was ever captured.
-/
import StackArena.Proofs.Census

namespace StackArena

/-- The grant lies in the taken part of a block. -/
def Grant.LiesIn (g : Grant) (blk : Block) : Prop :=
  blk.base ≤ g.address ∧ g.limit ≤ blk.base + blk.cursor

/-- Two grants share no byte. -/
def Grant.Apart (g g' : Grant) : Prop := g.limit ≤ g'.address ∨ g'.limit ≤ g.address

namespace Stack

variable {p : Platform} {gap : Nat} {r : Request} {s s' : Stack} {h h' : Host}

/-! ## Requests carry the active blocks over -/

/-- `s.Carries s'`: the active blocks of `s` are active in `s'`, and no cursor has moved back. -/
def Carries (s s' : Stack) : Prop :=
  ∀ blk ∈ s.active, ∃ blk' ∈ s'.active,
    blk'.region = blk.region ∧ blk'.base = blk.base ∧ blk.cursor ≤ blk'.cursor

theorem Carries.of_subset (hsub : ∀ blk ∈ s.active, blk ∈ s'.active) : s.Carries s' :=
  fun blk hblk => ⟨blk, hsub blk hblk, rfl, rfl, Nat.le_refl _⟩

theorem Carries.refl (s : Stack) : s.Carries s := .of_subset fun _ hblk => hblk

theorem Carries.trans {s₁ s₂ s₃ : Stack} (hfirst : s₁.Carries s₂) (hsecond : s₂.Carries s₃) :
    s₁.Carries s₃ := by
  intro blk hblk
  obtain ⟨blk', hblk', hregion, hbase, hcursor⟩ := hfirst blk hblk
  obtain ⟨blk'', hblk'', hregion', hbase', hcursor'⟩ := hsecond blk' hblk'
  exact ⟨blk'', hblk'', hregion'.trans hregion, hbase'.trans hbase, Nat.le_trans hcursor hcursor'⟩

theorem Bump.carries {out : Except Fault (Option Nat)} (hbump : Bump p r s h (out, s', h')) :
    s.Carries s' := by
  have hadvance : ∀ n, ∀ blk ∈ s.active, ∃ blk' ∈ s.current.advance n :: s.below,
      blk'.region = blk.region ∧ blk'.base = blk.base ∧ blk.cursor ≤ blk'.cursor := by
    intro n blk hblk
    rcases List.mem_cons.1 hblk with rfl | hold
    · exact ⟨_, List.mem_cons_self, rfl, rfl, Nat.le_add_right _ _⟩
    · exact ⟨blk, List.mem_cons_of_mem _ hold, rfl, rfl, Nat.le_refl _⟩
  cases hbump with
  | declined => exact .refl s
  | overdrawn => exact hadvance _
  | served => exact hadvance _

theorem Grow.carries {required : Nat} {out : Except Fault Unit}
    (hgrow : Grow p required s h (out, s', h')) : s.Carries s' := by
  cases out with
  | ok u =>
    obtain ⟨blk, others, n, rfl, -⟩ := hgrow.push_eq
    exact .of_subset fun old hold => List.mem_cons_of_mem _ hold
  | error f => rcases hgrow.of_error with rfl | ⟨n, -, rfl⟩ <;> exact Carries.refl _

theorem Serves.carries {out : Except Fault (Option Nat)} (hserves : Serves p r s h (out, s', h')) :
    s.Carries s' :=
  hserves.keeps (P := fun s' _ => s.Carries s') (.refl s) (fun hgrow => hgrow.carries)
    fun hfirst hbump => hfirst.trans hbump.carries

/-! ## What is served is new -/

/-- `Fresh r s s' address`: the bytes lie in the taken part of the current block of `s'`, aligned,
    and what `s` had taken of that block ends before them. -/
structure Fresh (r : Request) (s s' : Stack) (address : Nat) : Prop where
  base_le : s'.current.base ≤ address
  limit_le : address + r.size ≤ s'.current.base + s'.current.cursor
  aligned : Alignment.isValid r.alignment = true → r.alignment ∣ address
  above : ∀ blk ∈ s.active, blk.region = s'.current.region → blk.base + blk.cursor ≤ address

theorem Bump.fresh {address : Nat} (hl : Lodged h.memory s)
    (hbump : Bump p r s h (.ok (some address), s', h')) : Fresh r s s' address := by
  cases hbump with
  | @served n o hspan hout =>
    obtain ⟨hstart, hend⟩ := Block.startOf_eq hspan
    refine ⟨Nat.le_add_right _ _, ?_, Block.dvd_start hspan, ?_⟩
    · show s.current.base + s.current.startOf n r + r.size
        ≤ s.current.base + (s.current.cursor + n)
      omega
    · intro blk hblk hregion
      rw [hl.eq_of_region_eq hblk s.current_mem_active hregion]
      omega

/-- **What is served is new**: no byte of it was taken before. -/
theorem Serves.fresh {address : Nat} (hp : p.Sound gap) (hset : Settled gap s h)
    (hserves : Serves p r s h (.ok (some address), s', h')) : Fresh r s s' address := by
  cases hserves with
  | bumped hbump => exact hbump.fresh hset.lodged
  | grown hspan hroom hgrow hbump =>
    have hfresh := hbump.fresh (hgrow.moves hp hset).settled.lodged
    obtain ⟨blk, others, n, rfl, -⟩ := hgrow.push_eq
    exact ⟨hfresh.base_le, hfresh.limit_le, hfresh.aligned,
      fun old hold => hfresh.above old (List.mem_cons_of_mem _ hold)⟩

/-! ## Unwinds leave what was there -/

theorem active_of_unwound {m : Marker} {blk' : Block} (hblk' : blk' ∈ (s.unwound m).active) :
    ∃ blk ∈ s.active, blk.region = blk'.region ∧ blk.base = blk'.base := by
  obtain ⟨blk, rest, hdrop, hcurrent, hbelow⟩ := s.active_unwound m
  have hmem : ∀ old ∈ blk :: rest, old ∈ s.active := fun old hold =>
    List.mem_of_mem_drop (hdrop ▸ hold)
  rw [active, hcurrent, hbelow] at hblk'
  rcases List.mem_cons.1 hblk' with rfl | hold
  · exact ⟨blk, hmem blk List.mem_cons_self, rfl, rfl⟩
  · exact ⟨blk', hmem blk' (List.mem_cons_of_mem _ hold), rfl, rfl⟩

/-! ## Owned addresses -/

/-- A check of all elements that does not stop says whether one of them passes. -/
theorem anyM_eq_ok {α : Type} {f : α → Except Fault Bool} {g : α → Bool} {xs : List α}
    (h : ∀ x ∈ xs, f x = .ok (g x)) : xs.anyM f = .ok (xs.any g) := by
  induction xs with
  | nil => rfl
  | cons x rest ih =>
    rw [List.anyM, h x List.mem_cons_self, Except.ok_bind, List.any_cons]
    cases hx : g x with
    | true => rfl
    | false => exact ih fun y hy => h y (List.mem_cons_of_mem _ hy)

/-- Whether an address lies in an active block or at its end. -/
def covers (s : Stack) (address : Nat) : Bool := s.active.any fun blk => blk.extent.spans address

theorem covers_iff {address : Nat} : s.covers address = true ↔
    ∃ blk ∈ s.active, blk.base ≤ address ∧ address ≤ blk.base + blk.capacity := by
  rw [covers, List.any_eq_true]
  apply exists_congr
  intro blk
  rw [Extent.spans, Bool.and_eq_true, decide_eq_true_iff, decide_eq_true_iff]
  rfl

/-- The checks of ownership pass, and tell what the blocks cover. -/
theorem owns_eq (b : Build) (hs : s.WellFormed) (address : Nat) :
    s.owns b address = .ok (s.covers address) := by
  have hcontains : ∀ blk ∈ s.active.reverse,
      blk.contains b address = .ok (blk.extent.spans address) := by
    intro blk hblk
    have hbound := hs.bounded blk (mem_blocks_of_active (List.mem_reverse.1 hblk))
    rw [Block.contains, b.add_of_lt hbound]
    rfl
  rw [owns, anyM_eq_ok hcontains, List.any_reverse]
  rfl

/-- A stack owns what lies in an active block, its end included. -/
theorem owns_of_mem {b : Build} {blk : Block} {address : Nat} (hs : s.WellFormed)
    (hblk : blk ∈ s.active) (hlo : blk.base ≤ address) (hhi : address ≤ blk.base + blk.capacity) :
    s.owns b address = .ok true := by
  rw [owns_eq b hs, covers_iff.2 ⟨blk, hblk, hlo, hhi⟩]

end Stack

/-! ## Tidy tenancies -/

namespace Tenancy

open Stack

/-- `Tidy t`: every live grant lies in an active block, aligned, and apart from the other ones. -/
structure Tidy (t : Tenancy) : Prop where
  placed : ∀ g ∈ t.live, ∃ blk ∈ t.stack.active, blk.region = g.region ∧ g.LiesIn blk
  aligned : ∀ g ∈ t.live,
    Alignment.isValid g.request.alignment = true → g.request.alignment ∣ g.address
  apart : t.live.Pairwise Grant.Apart

variable {p : Platform} {gap : Nat} {t : Tenancy} {s : Stack} {h h' : Host}

theorem Tidy.new (s : Stack) : (new s).Tidy :=
  ⟨fun _ hg => (List.not_mem_nil hg).elim, fun _ hg => (List.not_mem_nil hg).elim,
    List.Pairwise.nil⟩

/-- Guards are nothing to grants. -/
theorem Tidy.hand (ht : t.Tidy) (guards : List Guard) : ({ t with guards } : Tenancy).Tidy :=
  ⟨ht.placed, ht.aligned, ht.apart⟩

/-- Grants stay where they are while their blocks are carried over. -/
theorem Tidy.carry (ht : t.Tidy) (hcarries : t.stack.Carries s) :
    ({ t with stack := s } : Tenancy).Tidy := by
  refine ⟨fun g hg => ?_, ht.aligned, ht.apart⟩
  obtain ⟨blk, hblk, hregion, hlo, hhi⟩ := ht.placed g hg
  obtain ⟨blk', hblk', hregion', hbase, hcursor⟩ := hcarries blk hblk
  exact ⟨blk', hblk', hregion'.trans hregion, by omega, by omega⟩

/-- What is served is apart from every live grant: it lies above the ones in its own block, and in
    another region than the other ones. -/
theorem Tidy.grant (ht : t.Tidy) (hset : Settled gap s h) (hcarries : t.stack.Carries s)
    {r : Request} {address : Nat} (hfresh : Fresh r t.stack s address) :
    ({ t with
      stack := s
      live := ⟨t.served, s.current.region, address, r⟩ :: t.live
      served := t.served + 1 } : Tenancy).Tidy := by
  have hcarried := ht.carry hcarries
  refine ⟨?_, ?_, List.pairwise_cons.2 ⟨?_, ht.apart⟩⟩
  · intro g hg
    rcases List.mem_cons.1 hg with rfl | hold
    · exact ⟨s.current, s.current_mem_active, rfl, hfresh.base_le, hfresh.limit_le⟩
    · exact hcarried.placed g hold
  · intro g hg
    rcases List.mem_cons.1 hg with rfl | hold
    · exact hfresh.aligned
    · exact ht.aligned g hold
  · intro g hg
    obtain ⟨blk, hblk, hregion, hlo, hhi⟩ := ht.placed g hg
    by_cases hsame : blk.region = s.current.region
    · exact Or.inr (Nat.le_trans hhi (hfresh.above blk hblk hsame))
    · obtain ⟨blk', hblk', hregion', hlo', hhi'⟩ := hcarried.placed g hg
      have hne : blk'.region ≠ s.current.region := by
        rw [hregion', ← hregion]
        exact hsame
      have hcursor := hset.wellFormed.cursor_le blk' (mem_blocks_of_active hblk')
      have htop := hset.wellFormed.current_le
      have hstart := hfresh.base_le
      have hend := hfresh.limit_le
      have hmem := mem_blocks_of_active hblk'
      rcases hset.lodged.apart hset.spaced hmem s.current_mem_blocks hne with hbefore | hafter
      · exact Or.inr (show g.limit ≤ address by omega)
      · exact Or.inl (show address + r.size ≤ g.address by omega)

/-- After an unwind the grants that are held lie where they lay. -/
theorem Tidy.drop (ht : t.Tidy) (hl : Lodged h.memory t.stack)
    (hleft : ∀ blk' ∈ s.active, ∃ blk ∈ t.stack.active,
      blk.region = blk'.region ∧ blk.base = blk'.base) :
    ({ t with stack := s, live := t.live.filter s.holds } : Tenancy).Tidy := by
  refine ⟨fun g hg => ?_, fun g hg => ht.aligned g (List.mem_filter.1 hg).1,
    ht.apart.sublist List.filter_sublist⟩
  obtain ⟨hlive, hheld⟩ := List.mem_filter.1 hg
  obtain ⟨blk', hblk', hboth⟩ := List.any_eq_true.1 hheld
  obtain ⟨hregion', hhi⟩ := Bool.and_eq_true_iff.1 hboth
  have hregion : blk'.region = g.region := beq_iff_eq.1 hregion'
  obtain ⟨blk, hblk, hsame, hbase⟩ := hleft blk' hblk'
  obtain ⟨old, hold, hplace, hlo, -⟩ := ht.placed g hlive
  have hone : old = blk := hl.eq_of_region_eq hold hblk (by rw [hplace, hsame, hregion])
  refine ⟨blk', hblk', hregion, ?_, of_decide_eq_true hhi⟩
  rw [← hbase, ← hone]
  exact hlo

/-- **Every turn keeps a tenancy tidy.** -/
theorem Turn.tidy (hp : p.Sound gap) (hset : Settled gap t.stack h) (ht : t.Tidy)
    {known : Marker → Prop} {t' : Tenancy} (hturn : Turn p known t h t' h') : t'.Tidy := by
  cases hturn with
  | still => exact ht.hand _
  | missed hserves => exact ht.carry hserves.carries
  | granted hserves =>
    exact ht.grant (hserves.moves hp hset).settled hserves.carries (hserves.fresh hp hset)
  | unwound => exact (ht.hand _).drop hset.lodged fun blk' hblk' => active_of_unwound hblk'
  | stopped => exact (ht.hand _).drop hset.lodged fun blk' hblk' => ⟨blk', hblk', rfl, rfl⟩
  | shrunk => exact ht.carry (.refl t.stack)

end Tenancy

/-! ## Every stack of a run -/

namespace World

open Stack

variable {p : Platform} {gap : Nat} {w : World}

/-- Every stack of a reachable world is tidy. -/
theorem Reachable.tidy (hp : p.Sound gap) (hw : Reachable p w) {i : Nat} {t : Tenancy}
    (hat : w.at? i = some t) : t.Tidy :=
  hw.induct hp (fun _ _ _ _ _ => Tenancy.Tidy.new _)
    (fun w i _ op hsound hat htidy =>
      (Tenancy.act_turn hp (hsound.settled i _ hat) w.markers op).tidy hp (hsound.settled i _ hat)
        htidy) i t hat

/-- **Live grants never overlap.**  In every state that a run reaches, in either build and whatever
    markers the unwinds were given, a live grant lies in the taken part of an active block, at a
    multiple of its alignment, and the stack owns it.  No other active block has it, unless it is
    empty and two regions touch.  Grants of one stack keep apart from one another, and from those
    of every other stack. -/
theorem live_grants_apart (hp : p.Sound gap) (hw : Reachable p w) {i : Nat} {t : Tenancy}
    (hat : w.at? i = some t) :
    (∀ g ∈ t.live,
      (∃ blk ∈ t.stack.active, blk.region = g.region ∧ g.LiesIn blk ∧
        (0 < g.request.size ∨ 0 < gap →
          ∀ other ∈ t.stack.active, g.LiesIn other → other = blk)) ∧
      (Alignment.isValid g.request.alignment = true → g.request.alignment ∣ g.address) ∧
      t.stack.owns p.build g.address = .ok true) ∧
    t.live.Pairwise Grant.Apart ∧
    ∀ j u, w.at? j = some u → j ≠ i → ∀ g ∈ t.live, ∀ g' ∈ u.live, g.Apart g' := by
  have hsound := hw.sound hp
  have htidy := hw.tidy hp hat
  have hset := hsound.settled i t hat
  refine ⟨?_, htidy.apart, ?_⟩
  · intro g hg
    obtain ⟨blk, hblk, hregion, hlo, hhi⟩ := htidy.placed g hg
    have hcursor := hset.wellFormed.cursor_le blk (mem_blocks_of_active hblk)
    have hsize : g.limit = g.address + g.request.size := rfl
    refine ⟨⟨blk, hblk, hregion, ⟨hlo, hhi⟩, fun hroom other hother hin => ?_⟩,
      htidy.aligned g hg, owns_of_mem hset.wellFormed hblk hlo (by omega)⟩
    -- In two blocks the grant would reach across the distance between their regions.
    by_contra hdiff
    have hne : blk.region ≠ other.region := fun heq =>
      hdiff (hset.lodged.eq_of_region_eq hother hblk heq.symm)
    have hcursor' := hset.wellFormed.cursor_le other (mem_blocks_of_active hother)
    obtain ⟨hlo', hhi'⟩ := hin
    rcases hset.lodged.apart hset.spaced (mem_blocks_of_active hblk)
      (mem_blocks_of_active hother) hne with hbefore | hafter
    · omega
    · omega
  · intro j u hu hne g hg g' hg'
    obtain ⟨blk, hblk, -, hlo, hhi⟩ := htidy.placed g hg
    obtain ⟨blk', hblk', -, hlo', hhi'⟩ := (hw.tidy hp hu).placed g' hg'
    have hset' := hsound.settled j u hu
    have hcursor := hset.wellFormed.cursor_le blk (mem_blocks_of_active hblk)
    have hcursor' := hset'.wellFormed.cursor_le blk' (mem_blocks_of_active hblk')
    have hne : blk.region ≠ blk'.region := fun heq =>
      hsound.apart i j t u hat hu (Ne.symm hne) _ (mem_regions_of_block (mem_blocks_of_active hblk))
        (heq ▸ mem_regions_of_block (mem_blocks_of_active hblk'))
    rcases hset.spaced.apart _ _ _ _ (hset.lodged.housed blk (mem_blocks_of_active hblk))
      (hset'.lodged.housed blk' (mem_blocks_of_active hblk')) hne rfl rfl with hbefore | hafter
    · have : blk.base + blk.capacity + gap ≤ blk'.base := hbefore
      exact Or.inl (by omega)
    · have : blk'.base + blk'.capacity + gap ≤ blk.base := hafter
      exact Or.inr (by omega)

/-- Three grants in two blocks, the last of them at an alignment beyond the natural ones. -/
theorem live_grants_apart_three :
    ∃ t, (run (Session.platform .release []) initial
        [.make (.sized .release 64), .on 0 (.allocate .plain ⟨10, 1⟩),
          .on 0 (.allocate .fallible ⟨20, 8⟩), .on 0 (.allocate .plain ⟨100, 32⟩)]).at? 0 = some t ∧
      t.live.map Grant.address = [131072, 65552, 65536] ∧ t.live.Pairwise Grant.Apart := by
  have hp : (Session.platform .release []).Sound 1 :=
    Session.platform_sound .release (by nofun) (by decide)
  have haddresses : ((run (Session.platform .release []) initial
      [.make (.sized .release 64), .on 0 (.allocate .plain ⟨10, 1⟩),
        .on 0 (.allocate .fallible ⟨20, 8⟩), .on 0 (.allocate .plain ⟨100, 32⟩)]).at? 0).map
      (fun t => t.live.map Grant.address) = some [131072, 65552, 65536] := by decide +kernel
  obtain ⟨t, hat, hlive⟩ := Option.map_eq_some_iff.1 haddresses
  exact ⟨t, hat, hlive, (live_grants_apart hp ⟨_, rfl⟩ hat).2.1⟩

end World

end StackArena
