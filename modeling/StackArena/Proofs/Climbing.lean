/-
  How a series of requests climbs.

  A series that is served moves the cursor of the current block, puts an empty block on top when the
  next request does not fit, goes on in that one, and so on.  Which addresses come of it depends on
  the blocks alone, on their bases and capacities, and not on where they were taken from:

    Climb blk supply rs addresses top cursor

  says that the requests `rs`, made to `blk` with the blocks of `supply` to be put on top one after
  the other, are served at `addresses` and leave `top` above `blk`, whose own cursor is `cursor`
  then.

  1. **Up** — every series that is served climbs in this way (`Ascent.climb`), in either build, with
     blocks from the cache, with new ones, or with both.
  2. **Up again** — wherever the blocks of the supply come first in the cache, the climb can be
     made: the series is served again, at the same addresses, and no block is made (`Climb.again`).
     Only the serials can come to their end meanwhile (`Climb.stops`).
-/
import StackArena.Proofs.Books

namespace StackArena

/-- What a block is, apart from its serial. -/
def Block.unnamed (blk : Block) : Block := { blk with serial := 0 }

namespace Stack

variable {p : Platform} {gap : Nat} {r : Request} {s s' : Stack} {h h' : Host}

/-! ## Single requests that are served -/

theorem bump_of_span {n o : Nat} (h : Host) (hs : s.WellFormed)
    (hvalid : p.build = .release ∨ Alignment.isValid r.alignment = true)
    (hspan : s.current.span? r = some n) (hout : p.build.add s.outstanding n = .ok o) :
    bump p r (s, h) = .ok (some (s.current.base + s.current.startOf n r)) (s.serve n o,
      s.painted h (s.current.startOf n r) r.size Config.newPattern) := by
  have hbump := bump_ends h hs hvalid
  generalize hafter : Action.after (bump p r) (s, h) = done at hbump
  cases hbump with
  | declined hnone =>
    rw [hspan] at hnone
    nomatch hnone
  | overdrawn hspan' hstop =>
    cases hspan.symm.trans hspan'
    rw [hout] at hstop
    nomatch hstop
  | served hspan' hout' =>
    cases hspan.symm.trans hspan'
    cases hout.symm.trans hout'
    exact Action.ok_of_after hafter

theorem bump_of_none (h : Host) (hs : s.WellFormed)
    (hvalid : p.build = .release ∨ Alignment.isValid r.alignment = true)
    (hspan : s.current.span? r = none) : bump p r (s, h) = .ok none (s, h) := by
  have hbump := bump_ends h hs hvalid
  generalize hafter : Action.after (bump p r) (s, h) = done at hbump
  cases hbump with
  | declined => exact Action.ok_of_after hafter
  | overdrawn hsome =>
    rw [hspan] at hsome
    nomatch hsome
  | served hsome =>
    rw [hspan] at hsome
    nomatch hsome

theorem grow_of_cached {required n : Nat} {blk : Block} {others : List Block} (hp : p.Sound gap)
    (hset : Settled gap s h) (hserial : p.build.add s.nextSerial 1 = .ok n)
    (hcache : takeCached? required s.cache = some (blk, others)) :
    grow p required (s, h) = .ok () (s.push (blk.recycle s.nextSerial) others n, h) := by
  have hgrow := grow_ends hp required hset
  generalize hafter : Action.after (grow p required) (s, h) = done at hgrow
  cases hgrow with
  | reused hserial' hcache' =>
    cases hserial.symm.trans hserial'
    cases hcache.symm.trans hcache'
    exact Action.ok_of_after hafter
  | made hserial' hnone =>
    rw [hcache] at hnone
    nomatch hnone
  | serialsOut hstop =>
    rw [hserial] at hstop
    nomatch hstop
  | noBlock hserial' hnone =>
    rw [hcache] at hnone
    nomatch hnone

/-- A request that fits into the current block is served there. -/
theorem allocate_of_span {n o : Nat} (h : Host) (hs : s.WellFormed)
    (hvalid : p.build = .release ∨ Alignment.isValid r.alignment = true)
    (hspan : s.current.span? r = some n) (hout : p.build.add s.outstanding n = .ok o) :
    allocate p r (s, h) = .ok (s.current.base + s.current.startOf n r) (s.serve n o,
      s.painted h (s.current.startOf n r) r.size Config.newPattern) := by
  rw [allocate, Build.require_of_holds _ hvalid, Action.check_bind,
    Action.bind_of_ok (bump_of_span h hs hvalid hspan hout)]
  rfl

/-- A request that does not fit there is served in the block that is put on top. -/
theorem allocate_of_grow {required n o : Nat} (hs : s.WellFormed)
    (hvalid : p.build = .release ∨ Alignment.isValid r.alignment = true)
    (hnone : s.current.span? r = none) (hroom : r.room? = some required)
    (hgrow : grow p required (s, h) = .ok () (s', h')) (hs' : s'.WellFormed)
    (hspan : s'.current.span? r = some n) (hout : p.build.add s'.outstanding n = .ok o) :
    allocate p r (s, h) = .ok (s'.current.base + s'.current.startOf n r) (s'.serve n o,
      s'.painted h' (s'.current.startOf n r) r.size Config.newPattern) := by
  rw [allocate, Build.require_of_holds _ hvalid, Action.check_bind,
    Action.bind_of_ok (bump_of_none h hs hvalid hnone), hroom]
  refine (Action.bind_of_ok hgrow).trans ?_
  rw [Action.bind_of_ok (bump_of_span h' hs' hvalid hspan hout)]
  rfl

/-- A request that does not fit there comes to nothing if no block can be put on top. -/
theorem allocate_of_stop {required : Nat} {f : Fault} {st : Stack × Host} (hs : s.WellFormed)
    (hvalid : p.build = .release ∨ Alignment.isValid r.alignment = true)
    (hnone : s.current.span? r = none) (hroom : r.room? = some required)
    (hgrow : grow p required (s, h) = .error f st) : allocate p r (s, h) = .error f st := by
  rw [allocate, Build.require_of_holds _ hvalid, Action.check_bind,
    Action.bind_of_ok (bump_of_none h hs hvalid hnone), hroom]
  exact Action.bind_of_error hgrow

/-- The books of a release build can hold whatever a block has given, and so can books that
    balance. -/
theorem fits_of_books (hset : Settled gap s h) (hbooks : p.build = .release ∨ s.Balanced) {n : Nat}
    (hspan : s.current.span? r = some n) : ∃ o, p.build.add s.outstanding n = .ok o := by
  rcases hbooks with hrelease | hb
  · rw [hrelease]
    exact Build.add_release _ _
  · exact ⟨_, p.build.add_of_lt (hb.fits hset (hset.wellFormed.span_le hspan))⟩

/-- **A request stays** in the current block if it fits there, and makes no region. -/
theorem allocate_stays {n : Nat} (hset : Settled gap s h)
    (hvalid : p.build = .release ∨ Alignment.isValid r.alignment = true)
    (hbooks : p.build = .release ∨ s.Balanced) (hspan : s.current.span? r = some n) :
    ∃ o h', allocate p r (s, h) = .ok (s.current.base + s.current.startOf n r) (s.serve n o, h') ∧
      Settled gap (s.serve n o) h' ∧ (p.build = .release ∨ (s.serve n o).Balanced) ∧
      ∀ k, h'.memory.extent? k = h.memory.extent? k := by
  obtain ⟨o, hout⟩ := fits_of_books hset hbooks hspan
  have hbump : Bump p r s h _ := .served hspan hout
  exact ⟨o, _, allocate_of_span h hset.wellFormed hvalid hspan hout, (hbump.moves hset).settled,
    hbooks.imp_right (hbump.balanced hset), fun k => extent?_painted _ _ _ _ _ _⟩

/-- **A request rises** to a block of the cache that is large enough, and makes no region. -/
theorem allocate_rises {required n k : Nat} {blk : Block} {others : List Block}
    (hp : p.Sound gap) (hset : Settled gap s h)
    (hvalid : p.build = .release ∨ Alignment.isValid r.alignment = true)
    (hbooks : p.build = .release ∨ s.Balanced) (hnone : s.current.span? r = none)
    (hroom : r.room? = some required) (hserial : p.build.add s.nextSerial 1 = .ok k)
    (hcache : takeCached? required s.cache = some (blk, others))
    (hspan : (blk.recycle s.nextSerial).span? r = some n) :
    ∃ o h', allocate p r (s, h) = .ok (blk.base + (blk.recycle s.nextSerial).startOf n r)
        ((s.push (blk.recycle s.nextSerial) others k).serve n o, h') ∧
      Settled gap ((s.push (blk.recycle s.nextSerial) others k).serve n o) h' ∧
      (p.build = .release ∨ ((s.push (blk.recycle s.nextSerial) others k).serve n o).Balanced) ∧
      ∀ k, h'.memory.extent? k = h.memory.extent? k := by
  have hgrow : Grow p required s h _ := .reused hserial hcache
  have hset' := (hgrow.moves hp hset).settled
  have hbooks' := hbooks.imp_right hgrow.balanced
  obtain ⟨o, hout⟩ := fits_of_books (r := r) hset' hbooks' hspan
  have hbump : Bump p r _ h _ := .served hspan hout
  exact ⟨o, _, allocate_of_grow hset.wellFormed hvalid hnone hroom
    (grow_of_cached hp hset hserial hcache) hset'.wellFormed hspan hout,
    (hbump.moves hset').settled, hbooks'.imp_right (hbump.balanced hset'),
    fun k => extent?_painted _ _ _ _ _ _⟩

/-! ## A series that is served -/

/-- `Ascent p rs s h addresses s' h'`: the requests are served one after the other. -/
inductive Ascent (p : Platform) :
    List Request → Stack → Host → List Nat → Stack → Host → Prop
  | done {s : Stack} {h : Host} : Ascent p [] s h [] s h
  | step {r : Request} {rs : List Request} {s s₁ s' : Stack} {h h₁ h' : Host} {address : Nat}
      {addresses : List Nat}
      (hvalid : p.build = .release ∨ Alignment.isValid r.alignment = true)
      (hserves : Serves p r s h (.ok (some address), s₁, h₁))
      (hrest : Ascent p rs s₁ h₁ addresses s' h') :
      Ascent p (r :: rs) s h (address :: addresses) s' h'

/-- A series that ends with addresses was served. -/
theorem ascent_of_run (hp : p.Sound gap) {rs : List Request} {addresses : List Nat}
    (hset : Settled gap s h) (hrun : allocateAll p rs (s, h) = .ok addresses (s', h')) :
    Ascent p rs s h addresses s' h' := by
  induction rs generalizing s h addresses with
  | nil =>
    cases hrun
    exact .done
  | cons r rs ih =>
    obtain ⟨address, ⟨s₁, h₁⟩, hfirst, hrest⟩ := Action.bind_eq_ok hrun
    obtain ⟨others, ⟨s₂, h₂⟩, hothers, hlast⟩ := Action.bind_eq_ok hrest
    cases hlast
    have hserves : Serves p r s h (.ok (some address), s₁, h₁) := by
      have hends := allocate_ends (r := r) hp hset
      rw [Action.after_map, Action.after_of_ok hfirst] at hends
      exact hends
    have hvalid : p.build = .release ∨ Alignment.isValid r.alignment = true := by
      by_contra hnot
      obtain ⟨hbuild, hinvalid⟩ := invalid_of_not hnot
      rw [allocate, hbuild, hinvalid] at hfirst
      cases hfirst
    exact .step hvalid hserves (ih (hserves.moves hp hset).settled hothers)

/-- A request that is served is served by the current block, or by one that is put on top. -/
theorem Serves.cases_some {address : Nat} (hserves : Serves p r s h (.ok (some address), s', h')) :
    Bump p r s h (.ok (some address), s', h') ∨
    ∃ required s₁ h₁, s.current.span? r = none ∧ r.room? = some required ∧
      Grow p required s h (.ok (), s₁, h₁) ∧ Bump p r s₁ h₁ (.ok (some address), s', h') := by
  cases hserves with
  | bumped hbump => exact Or.inl hbump
  | grown hspan hroom hgrow hbump => exact Or.inr ⟨_, _, _, hspan, hroom, hgrow, hbump⟩

section

variable {rs : List Request} {addresses : List Nat} (hascent : Ascent p rs s h addresses s' h')

include hascent

theorem Ascent.moves (hp : p.Sound gap) (hset : Settled gap s h) : Moves gap s h s' h' := by
  induction hascent with
  | done => exact hset.moves_refl
  | step hvalid hserves hrest ih =>
    have hfirst := hserves.moves hp hset
    exact hfirst.trans (ih hfirst.settled)

theorem Ascent.balanced (hp : p.Sound gap) (hset : Settled gap s h) (hb : s.Balanced) :
    s'.Balanced := by
  induction hascent with
  | done => exact hb
  | step hvalid hserves hrest ih =>
    exact ih (hserves.moves hp hset).settled (hserves.balanced hp hset hb)

theorem Ascent.valid :
    ∀ r ∈ rs, p.build = .release ∨ Alignment.isValid r.alignment = true := by
  induction hascent with
  | done => exact fun r hr => (List.not_mem_nil hr).elim
  | step hvalid hserves hrest ih =>
    intro r hr
    rcases List.mem_cons.1 hr with rfl | hr
    · exact hvalid
    · exact ih r hr

theorem Ascent.retention_eq : s'.retention = s.retention := by
  induction hascent with
  | done => rfl
  | @step r rs s s₁ s' h h₁ h' address addresses hvalid hserves hrest ih =>
    rw [ih]
    refine hserves.keeps (P := fun s' _ => s'.retention = s.retention) rfl ?_ ?_
    · intro required out s₁ h₁ hgrow
      cases hgrow <;> rfl
    · intro s₁ h₁ out s₂ h₂ hfirst hbump
      rw [← hfirst]
      cases hbump <;> rfl

/-- The bytes that a series takes are added to the cursors and to the books alike. -/
theorem Ascent.taken (hlt : s.outstanding < Word.count) :
    ∃ n, s'.reserved = s.reserved + n ∧ s'.outstanding = (s.outstanding + n) % Word.count := by
  induction hascent with
  | done => exact ⟨0, rfl, (Nat.mod_eq_of_lt hlt).symm⟩
  | @step r rs s s₁ s' h h₁ h' address addresses hvalid hserves hrest ih =>
    have hfirst : ∃ n, s₁.reserved = s.reserved + n ∧
        s₁.outstanding = (s.outstanding + n) % Word.count := by
      rcases hserves.cases_some with hbump | ⟨required, s₀, h₀, -, -, hgrow, hbump⟩
      · cases hbump with
        | @served n o hspan hout => exact ⟨n, reserved_advance s n, Build.eq_mod_of_add hout⟩
      · obtain ⟨blk, others, k, rfl, hempty, -⟩ := hgrow.push_eq
        have hsame : (s.push blk others k).reserved = s.reserved := by
          show blk.cursor + s.reserved = s.reserved
          rw [hempty, Nat.zero_add]
        cases hbump with
        | @served n o hspan hout =>
          refine ⟨n, ?_, Build.eq_mod_of_add hout⟩
          rw [← hsame]
          exact reserved_advance _ n
    obtain ⟨n, hreserved, hout⟩ := hfirst
    have hlt₁ : s₁.outstanding < Word.count := by
      rw [hout]
      exact Nat.mod_lt _ (by decide)
    obtain ⟨m, hreserved', hout'⟩ := ih hlt₁
    refine ⟨n + m, by omega, ?_⟩
    rw [hout', hout, Nat.mod_add_mod, Nat.add_assoc]

end

/-! ## Climbs -/

/-- `Climb blk supply rs addresses top cursor`: requests made to a block, with a supply of empty
    blocks to put on top; see above. -/
inductive Climb : Block → List Block → List Request → List Nat → List Block → Nat → Prop
  | rest {blk : Block} : Climb blk [] [] [] [] blk.cursor
  | stay {blk : Block} {supply top : List Block} {r : Request} {rs : List Request} {n cursor : Nat}
      {addresses : List Nat} (hspan : blk.span? r = some n)
      (hrest : Climb (blk.advance n) supply rs addresses top cursor) :
      Climb blk supply (r :: rs) ((blk.base + blk.startOf n r) :: addresses) top cursor
  | rise {blk fresh : Block} {supply top : List Block} {r : Request} {rs : List Request}
      {required n cursor : Nat} {addresses : List Nat} (hnone : blk.span? r = none)
      (hroom : r.room? = some required) (hfits : required ≤ fresh.capacity)
      (hempty : fresh.recycle 0 = fresh) (hspan : fresh.span? r = some n)
      (hrest : Climb (fresh.advance n) supply rs addresses top cursor) :
      Climb blk (fresh :: supply) (r :: rs) ((fresh.base + fresh.startOf n r) :: addresses)
        (top ++ [{ fresh with cursor }]) blk.cursor

section

variable {blk : Block} {supply top : List Block} {rs : List Request} {addresses : List Nat}
  {cursor : Nat} (hclimb : Climb blk supply rs addresses top cursor)

include hclimb

theorem Climb.cursor_le : blk.cursor ≤ cursor := by
  induction hclimb with
  | rest => exact Nat.le_refl _
  | stay hspan hrest ih => exact Nat.le_trans (Nat.le_add_right _ _) ih
  | rise => exact Nat.le_refl _

/-- What lies on top in the end is the supply, the last of it first. -/
theorem Climb.top_eq : top.map (Block.recycle 0) = supply.reverse := by
  induction hclimb with
  | rest => rfl
  | stay hspan hrest ih => exact ih
  | @rise blk fresh supply top r rs required n cursor addresses _ _ _ hempty _ _ ih =>
    have hlast : Block.recycle 0 { fresh with cursor } = fresh := hempty
    rw [List.map_append, ih, List.map_singleton, hlast, List.reverse_cons]

theorem Climb.length_top : top.length = supply.length := by
  have hlength := congrArg List.length hclimb.top_eq
  rwa [List.length_map, List.length_reverse] at hlength

end

/-- **A series that is served climbs.** -/
theorem Ascent.climb {rs : List Request} {addresses : List Nat}
    (hascent : Ascent p rs s h addresses s' h') : ∃ supply newer cursor,
    Climb s.current.unnamed supply rs addresses (newer.map Block.unnamed) cursor ∧
      s'.active = newer ++ { s.current with cursor } :: s.below ∧
      (p.build = .release ∨ s'.nextSerial = s.nextSerial + newer.length) := by
  induction hascent with
  | @done s h => exact ⟨[], [], s.current.cursor, .rest, rfl, Or.inr rfl⟩
  | @step r rs s s₁ s' h h₁ h' address addresses hvalid hserves hrest ih =>
    obtain ⟨supply, newer, cursor, hclimb, hactive, hserials⟩ := ih
    rcases hserves.cases_some with hbump | ⟨required, s₀, h₀, hnone, hroom, hgrow, hbump⟩
    · cases hbump with
      | served hspan hout => exact ⟨supply, newer, cursor, .stay hspan hclimb, hactive, hserials⟩
    · obtain ⟨fresh, others, k, rfl, hempty, -, hserial, hfits⟩ := hgrow.push_eq
      cases hbump with
      | @served n o hspan hout =>
        refine ⟨fresh.unnamed :: supply, newer ++ [{ fresh with cursor }], s.current.cursor, ?_,
          ?_, ?_⟩
        · have hrecycled : fresh.unnamed.recycle 0 = fresh.unnamed := by
            rw [Block.recycle, Block.reset, Block.unnamed, ← hempty]
          rw [List.map_append]
          exact .rise hnone hroom hfits hrecycled hspan hclimb
        · rw [hactive, List.append_assoc]
          rfl
        · rcases Build.add_eq_ok hserial with ⟨-, hk⟩ | ⟨hrelease, -⟩
          · refine hserials.imp_right fun hrest => ?_
            have hrest' : s'.nextSerial = k + newer.length := hrest
            rw [List.length_append, List.length_singleton]
            omega
          · exact Or.inl hrelease

section

variable {blk : Block} {supply top : List Block} {rs : List Request} {addresses : List Nat}
  {cursor : Nat} (hp : p.Sound gap) (hclimb : Climb blk supply rs addresses top cursor)
  (hset : Settled gap s h)
  (hvalid : ∀ r ∈ rs, p.build = .release ∨ Alignment.isValid r.alignment = true)
  (hbooks : p.build = .release ∨ s.Balanced) (hblk : s.current.unnamed = blk)
  {ready kept : List Block} (hcache : s.cache = ready ++ kept)
  (hready : ready.map (Block.recycle 0) = supply)

include hp hclimb hset hvalid hbooks hblk hcache hready

/-- **A climb can be made again.**  On a stack whose current block is that of a climb, and whose
    cache begins with the blocks of its supply, the series is served, at the same addresses; what is
    left of the cache is the rest, and no region is made or freed. -/
theorem Climb.again
    (hserials : p.build = .release ∨ s.nextSerial + supply.length < Word.count) :
    ∃ s' h' newer, allocateAll p rs (s, h) = .ok addresses (s', h') ∧
      s'.active = newer ++ { s.current with cursor } :: s.below ∧
      newer.map Block.unnamed = top ∧ s'.cache = kept ∧
      (p.build = .release ∨ s'.nextSerial = s.nextSerial + supply.length) ∧
      ∀ n, h'.memory.extent? n = h.memory.extent? n := by
  induction hclimb generalizing s h ready with
  | rest =>
    obtain rfl := List.map_eq_nil_iff.1 hready
    rw [← hblk]
    exact ⟨s, h, [], rfl, rfl, rfl, hcache, Or.inr rfl, fun n => rfl⟩
  | stay hspan hrest ih =>
    subst hblk
    obtain ⟨o, h₁, hfirst, hset₁, hbooks₁, hextent₁⟩ :=
      allocate_stays hset (hvalid _ List.mem_cons_self) hbooks hspan
    obtain ⟨s', h', newer, hrun, hactive, hnewer, hkept, hnext, hextent⟩ := ih hset₁
      (fun r hr => hvalid r (List.mem_cons_of_mem _ hr)) hbooks₁ rfl hcache hready hserials
    refine ⟨s', h', newer, ?_, hactive, hnewer, hkept, hnext, ?_⟩
    · rw [allocateAll, Action.bind_of_ok hfirst, Action.bind_of_ok hrun]
      rfl
    · intro n
      rw [hextent, hextent₁]
  | @rise blk fresh supply top r rs required n cursor addresses hnone hroom hfits hempty hspan hrest
      ih =>
    subst hblk
    -- The next block of the supply is the first one in the cache, so it is the one that is taken.
    obtain ⟨first, others, rfl, rfl, hothers⟩ := List.map_eq_cons_iff.1 hready
    have hcached : takeCached? required s.cache = some (first, others ++ kept) := by
      rw [hcache]
      exact takeCached?_cons hfits
    rw [List.length_cons] at hserials
    obtain ⟨k, hserial, hk⟩ : ∃ k, p.build.add s.nextSerial 1 = .ok k ∧
        (p.build = .release ∨ k = s.nextSerial + 1) := by
      rcases hserials with hrelease | hlt
      · obtain ⟨k, hk⟩ := Build.add_release s.nextSerial 1
        exact ⟨k, by rw [hrelease, hk], Or.inl hrelease⟩
      · exact ⟨_, p.build.add_of_lt (by omega), Or.inr rfl⟩
    obtain ⟨o, h₁, hfirst, hset₁, hbooks₁, hextent₁⟩ := allocate_rises hp hset
      (hvalid r List.mem_cons_self) hbooks hnone hroom hserial hcached hspan
    have hserials₁ : p.build = .release ∨ k + supply.length < Word.count := by
      rcases hserials with hrelease | hlt
      · exact Or.inl hrelease
      · exact hk.imp_right fun hk => by omega
    obtain ⟨s', h', newer, hrun, hactive, hnewer, hkept, hnext, hextent⟩ := ih hset₁
      (fun r hr => hvalid r (List.mem_cons_of_mem _ hr)) hbooks₁ rfl rfl hothers hserials₁
    refine ⟨s', h', newer ++ [{ first.recycle s.nextSerial with cursor }], ?_, ?_, ?_, hkept, ?_,
      ?_⟩
    · rw [allocateAll, Action.bind_of_ok hfirst, Action.bind_of_ok hrun]
      rfl
    · rw [hactive, List.append_assoc]
      rfl
    · rw [List.map_append, hnewer]
      rfl
    · rcases hnext with hrelease | hnext
      · exact Or.inl hrelease
      · refine hk.imp_right fun hk => ?_
        have hnext' : s'.nextSerial = k + supply.length := hnext
        rw [List.length_cons]
        omega
    · intro n
      rw [hextent, hextent₁]

/-- **All that can stop it is the end of the serials**, in a debug build. -/
theorem Climb.stops (hdebug : p.build = .debug) (hlt : s.nextSerial < Word.count)
    (hfull : Word.count ≤ s.nextSerial + supply.length) :
    ∃ st, allocateAll p rs (s, h) = .error (.overflow .add) st := by
  induction hclimb generalizing s h ready with
  | rest => exact absurd hfull (Nat.not_le.2 hlt)
  | stay hspan hrest ih =>
    subst hblk
    obtain ⟨o, h₁, hfirst, hset₁, hbooks₁, -⟩ :=
      allocate_stays hset (hvalid _ List.mem_cons_self) hbooks hspan
    obtain ⟨st, hstop⟩ := ih hset₁ (fun r hr => hvalid r (List.mem_cons_of_mem _ hr)) hbooks₁ rfl
      hcache hready hlt hfull
    refine ⟨st, ?_⟩
    rw [allocateAll, Action.bind_of_ok hfirst]
    exact Action.bind_of_error hstop
  | @rise blk fresh supply top r rs required n cursor addresses hnone hroom hfits hempty hspan hrest
      ih =>
    subst hblk
    obtain ⟨first, others, rfl, rfl, hothers⟩ := List.map_eq_cons_iff.1 hready
    have hvalid₁ := hvalid r List.mem_cons_self
    rcases Nat.lt_or_ge (s.nextSerial + 1) Word.count with hnext | hlast
    · have hcached : takeCached? required s.cache = some (first, others ++ kept) := by
        rw [hcache]
        exact takeCached?_cons hfits
      obtain ⟨o, h₁, hfirst, hset₁, hbooks₁, -⟩ := allocate_rises hp hset hvalid₁ hbooks hnone hroom
        (p.build.add_of_lt hnext) hcached hspan
      have hfull₁ : Word.count ≤ s.nextSerial + 1 + supply.length := by
        rw [List.length_cons] at hfull
        omega
      obtain ⟨st, hstop⟩ := ih hset₁ (fun r hr => hvalid r (List.mem_cons_of_mem _ hr)) hbooks₁ rfl
        rfl hothers hnext hfull₁
      refine ⟨st, ?_⟩
      rw [allocateAll, Action.bind_of_ok hfirst]
      exact Action.bind_of_error hstop
    · have hserial : p.build.add s.nextSerial 1 = .error (.overflow .add) := by
        rw [hdebug]
        exact Build.add_debug_of_le hlast
      have hfirst := allocate_of_stop hset.wellFormed hvalid₁ hnone hroom (grow_of_full h hserial)
      refine ⟨(s, h), ?_⟩
      rw [allocateAll]
      exact Action.bind_of_error hfirst

end

end Stack

end StackArena
