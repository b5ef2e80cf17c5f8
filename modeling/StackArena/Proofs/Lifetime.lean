/-
  From the construction of a stack to its end.

  A stack is made settled, in a region of its own and under an identity that was never taken
  before (`make_cases`, `ofConfig_cases`).  Reports leave it alone; trimming its cache moves it; and
  at its end its regions are all that is touched.
-/
import StackArena.Proofs.Releasing

namespace StackArena

/-! ## Freeing blocks -/

/-- The host after blocks were freed. -/
def Host.withoutBlocks (h : Host) (blks : List Block) : Host :=
  blks.foldl (fun h blk => h.withoutRegion blk.region) h

namespace Stack

theorem freeBlocks_apply (blks : List Block) (h : Host) :
    freeBlocks blks h = .ok () (h.withoutBlocks blks) := by
  induction blks generalizing h with
  | nil => rfl
  | cons blk rest ih =>
    have hfree : blk.free h = .ok () (h.withoutRegion blk.region) := rfl
    rw [freeBlocks, Action.bind_of_ok hfree, ih]
    rfl

/-- Freeing blocks leaves every other region as it is. -/
theorem extent?_withoutBlocks {blks : List Block} {h : Host} {n : Nat}
    (hn : n ∉ blks.map Block.region) :
    (h.withoutBlocks blks).memory.extent? n = h.memory.extent? n := by
  induction blks generalizing h with
  | nil => rfl
  | cons blk rest ih =>
    have hblk := List.ne_of_not_mem_cons hn
    exact (ih (List.not_mem_of_not_mem_cons hn)).trans (extent?_withoutRegion_ne hblk)

theorem spaced_withoutBlocks {gap : Nat} {h : Host} (hm : h.memory.Spaced gap)
    (blks : List Block) : (h.withoutBlocks blks).memory.Spaced gap := by
  induction blks generalizing h with
  | nil => exact hm
  | cons blk rest ih => exact ih (hm.freeRegion blk.region)

theorem lastId_withoutBlocks (h : Host) (blks : List Block) :
    (h.withoutBlocks blks).lastId = h.lastId := by
  induction blks generalizing h with
  | nil => rfl
  | cons blk rest ih => exact ih (h.withoutRegion blk.region)

/-! ## Construction -/

/-- The host after an identity was taken. -/
def identified (h : Host) : Host := { h with lastId := h.lastId + 1 }

/-- A new stack, with its first block in a region at `base`. -/
def newborn (c : Config) (h : Host) (base : Nat) : Stack where
  id := ⟨h.lastId + 1⟩
  current := ⟨h.memory.nextRegion, base, c.initialBlock, 0, 0⟩
  below := []
  cache := []
  growth := c.growth
  retention := c.retention
  fill := c.fill
  capacity := c.initialBlock
  outstanding := 0
  nextSerial := 1
  bottom := ⟨⟨h.lastId + 1⟩, 1, 0, 0, 0⟩

/-- **Construction** makes a new stack, or stops with nothing but an identity taken. -/
theorem make_cases (p : Platform) (c : Config) (h : Host) :
    (∃ base, p.placeRegion h.memory.outline (Block.layoutOf c.initialBlock) = some base ∧
      make p c h = .ok (newborn c h base)
        ((identified h).withRegion p base (Block.layoutOf c.initialBlock))) ∨
    (∃ f, make p c h = .error f (identified h)) := by
  have hid : Host.freshId h = .ok ⟨h.lastId + 1⟩ (identified h) := rfl
  have hrun := Action.bind_of_ok (f := fun id => (do
    let first ← Block.make p c.initialBlock 0
    return {
      id
      current := first
      below := []
      cache := []
      growth := c.growth
      retention := c.retention
      fill := c.fill
      capacity := first.capacity
      outstanding := 0
      nextSerial := 1
      bottom := ⟨id, 1, first.serial, 0, 0⟩ } : HostAction Stack)) hid
  rcases Block.make_cases p c.initialBlock 0 (identified h) with
    ⟨base, hplace, hmake, -⟩ | ⟨f, hmake, -⟩
  · exact Or.inl ⟨base, hplace, hrun.trans (Action.bind_of_ok hmake)⟩
  · exact Or.inr ⟨f, hrun.trans (Action.bind_of_error hmake)⟩

/-- A stack is made of any configuration that is accepted, or the configuration is refused, or it
    stops with nothing but an identity taken. -/
theorem ofConfig_cases (p : Platform) (c : Config) (h : Host) :
    (∃ base, p.placeRegion h.memory.outline (Block.layoutOf c.initialBlock) = some base ∧
      ofConfig p c h = .ok (.ok (newborn c h base))
        ((identified h).withRegion p base (Block.layoutOf c.initialBlock)) ∧
      c.validate = .ok ()) ∨
    (∃ e, ofConfig p c h = .ok (.error e) h) ∨
    (∃ f, ofConfig p c h = .error f (identified h)) := by
  rw [ofConfig]
  cases hvalid : c.validate with
  | error e => exact Or.inr (Or.inl ⟨e, rfl⟩)
  | ok u =>
    rcases make_cases p c h with ⟨base, hplace, hmake⟩ | ⟨f, hmake⟩
    · exact Or.inl ⟨base, hplace, Action.bind_of_ok hmake, rfl⟩
    · exact Or.inr (Or.inr ⟨f, Action.bind_of_error hmake⟩)

/-- A new stack is settled. -/
theorem newborn_settled {p : Platform} {gap : Nat} (hp : p.Sound gap) {c : Config} {h : Host}
    {base : Nat} (hm : h.memory.Spaced gap)
    (hplace : p.placeRegion h.memory.outline (Block.layoutOf c.initialBlock) = some base) :
    Settled gap (newborn c h base)
      ((identified h).withRegion p base (Block.layoutOf c.initialBlock)) := by
  refine ⟨⟨?_, ?_, rfl, [], _, rfl, rfl⟩, ⟨?_, List.nodup_singleton _⟩, hm.addRegion hp hplace _⟩
  · intro blk hblk
    rw [List.mem_singleton.1 hblk]
    exact Nat.zero_le _
  · intro blk hblk
    rw [List.mem_singleton.1 hblk]
    exact hp.bounded _ _ _ hplace
  · intro blk hblk
    rw [List.mem_singleton.1 hblk]
    exact h.memory.extent?_addRegion_self base _ _

/-! ## Reports, trimming and the end -/

/-- **A report of leaks** is one of the outstanding bytes, if there are any; it ends as that
    does. -/
theorem reportLeaks_cases (p : Platform) (s : Stack) (h : Host) :
    (s.outstanding = 0 ∧ reportLeaks p (s, h) = .ok s.outstanding (s, h)) ∨
    (s.outstanding ≠ 0 ∧
      ((∃ h', Host.reportLeak p s.info s.outstanding h = .ok () h' ∧
          reportLeaks p (s, h) = .ok s.outstanding (s, h')) ∨
        ∃ f h', Host.reportLeak p s.info s.outstanding h = .error f h' ∧
          reportLeaks p (s, h) = .error f (s, h'))) := by
  by_cases hzero : s.outstanding = 0
  · refine Or.inl ⟨hzero, ?_⟩
    rw [reportLeaks, Action.self_bind, if_neg (not_not.2 hzero)]
    rfl
  · refine Or.inr ⟨hzero, ?_⟩
    have hrun : reportLeaks p (s, h)
        = (Action.onHost (Host.reportLeak p s.info s.outstanding) >>= fun _ =>
            (pure s.outstanding : Action Stack Nat)) (s, h) := by
      rw [reportLeaks, Action.self_bind, if_pos hzero]
      rfl
    cases hreport : Host.reportLeak p s.info s.outstanding h with
    | ok u h' =>
      exact Or.inl ⟨h', rfl, hrun.trans (Action.bind_of_ok (Action.onHost_of_ok hreport))⟩
    | error f h' =>
      exact Or.inr ⟨f, h', rfl, hrun.trans (Action.bind_of_error (Action.onHost_of_error hreport))⟩

/-- A leak report leaves the stack as it is, and the host still. -/
theorem reportLeaks_ends (p : Platform) (s : Stack) (h : Host) :
    ∃ out h', Action.after (reportLeaks p) (s, h) = (out, s, h') ∧ h.Still h' := by
  have hstill := Host.reportLeak_quiet p s.info s.outstanding h
  rcases reportLeaks_cases p s h with
    ⟨-, hquiet⟩ | ⟨-, ⟨h', hreport, hdone⟩ | ⟨f, h', hreport, hstop⟩⟩
  · exact ⟨_, h, Action.after_of_ok hquiet, Host.Still.refl h⟩
  · rw [HostAction.end_of_ok hreport] at hstill
    exact ⟨_, h', Action.after_of_ok hdone, hstill⟩
  · rw [HostAction.end_of_error hreport] at hstill
    exact ⟨_, h', Action.after_of_error hstop, hstill⟩

/-- The host after the event that tells of the trimming of a cache that has blocks. -/
def toldShrunk (s : Stack) (h : Host) : Host :=
  if !s.cache.isEmpty then
    { h with journal := h.journal ++ [.event (.shrunk s.id s.cache.length)] }
  else h

/-- The cache is trimmed; nothing can go wrong. -/
theorem shrink_apply (s : Stack) (h : Host) :
    shrink (s, h)
      = .ok () ({ s with cache := [] }, (s.toldShrunk h).withoutBlocks s.cache.reverse) := by
  have hfree := Action.onHost_of_ok (s := { s with cache := [] })
    (freeBlocks_apply s.cache.reverse (s.toldShrunk h))
  rw [shrink, Action.self_bind]
  refine Eq.trans ?_ hfree
  unfold toldShrunk
  cases s.cache.isEmpty <;> rfl

/-- Trimming the cache moves the stack. -/
theorem shrink_moves {gap : Nat} {s : Stack} {h : Host} (hset : Settled gap s h) :
    Moves gap s h { s with cache := [] } ((s.toldShrunk h).withoutBlocks s.cache.reverse) := by
  have hs := hset.wellFormed
  have htold : (s.toldShrunk h).memory = h.memory ∧ (s.toldShrunk h).lastId = h.lastId := by
    unfold toldShrunk
    split <;> exact ⟨rfl, rfl⟩
  have hblocks : ({ s with cache := [] } : Stack).blocks = s.active := List.append_nil _
  have hactive : ∀ blk ∈ ({ s with cache := [] } : Stack).blocks, blk ∈ s.active := by
    intro blk hblk
    rwa [hblocks] at hblk
  have hregions : s.regions = s.active.map Block.region ++ s.cache.map Block.region := by
    rw [regions, blocks, List.map_append]
  have hdistinct := hset.lodged.distinct
  rw [hregions] at hdistinct
  obtain ⟨hactives, -, hapart⟩ := List.nodup_append.1 hdistinct
  have hspaced := spaced_withoutBlocks (htold.1 ▸ hset.spaced) s.cache.reverse
  refine hset.moves_of_kept ⟨?_, ?_, hs.capacity_eq, hs.rooted⟩ rfl
    ((lastId_withoutBlocks _ _).trans htold.2) hspaced ?_ ?_ ?_
  · intro blk hblk
    exact hs.cursor_le blk (mem_blocks_of_active (hactive blk hblk))
  · intro blk hblk
    exact hs.bounded blk (mem_blocks_of_active (hactive blk hblk))
  · -- Only the regions of the cache have changed, and those are neither kept nor foreign.
    intro n hn
    have hnot : n ∉ s.cache.map Block.region := by
      intro hcached
      rcases hn with hkept | hforeign
      · rw [regions, hblocks] at hkept
        exact hapart n hkept n hcached rfl
      · exact hforeign (by rw [hregions]; exact List.mem_append_right _ hcached)
    rw [extent?_withoutBlocks (by rwa [List.map_reverse, List.mem_reverse]), htold.1]
  · intro blk hblk
    exact ⟨blk, mem_blocks_of_active (hactive blk hblk), rfl, rfl⟩
  · rw [regions, hblocks]
    exact hactives

/-- **The end of a stack**: outstanding bytes are reported, and then all blocks are freed, whatever
    the handler does; only after a fatal fault nothing is freed any more. -/
theorem discard_cases (p : Platform) (s : Stack) (h : Host) :
    ∃ out h₁, Action.after (reportLeaks p) (s, h) = (out, s, h₁) ∧ h.Still h₁ ∧
      ((∃ f, out = .error f ∧ f.isFatal = true ∧
          Action.after (discard p) (s, h) = (.error f, s, h₁)) ∨
        (∀ f, out = .error f → f.isFatal = false) ∧
          Action.after (discard p) (s, h) = (out.map fun _ => (), s,
            h₁.withoutBlocks (s.active.reverse ++ s.cache.reverse))) := by
  obtain ⟨out, h₁, hreport, hstill⟩ := reportLeaks_ends p s h
  refine ⟨out, h₁, hreport, hstill, ?_⟩
  have hfree : (do
        let s ← Action.self
        freeBlocks (s.active.reverse ++ s.cache.reverse) : Action Stack Unit) (s, h₁)
      = .ok () (s, h₁.withoutBlocks (s.active.reverse ++ s.cache.reverse)) :=
    Action.onHost_of_ok (freeBlocks_apply _ h₁)
  rcases Action.of_after hreport with ⟨x, rfl, hr⟩ | ⟨f, rfl, hr⟩
  · have hbody : (do let _ ← reportLeaks p : Action Stack Unit) (s, h) = .ok () (s, h₁) :=
      Action.bind_of_ok hr
    refine Or.inr ⟨nofun, Action.after_of_ok ?_⟩
    simp only [discard, Action.ensuring, hbody, hfree]
  · have hbody : (do let _ ← reportLeaks p : Action Stack Unit) (s, h) = .error f (s, h₁) :=
      Action.bind_of_error hr
    by_cases hfatal : f.isFatal = true
    · refine Or.inl ⟨f, rfl, hfatal, Action.after_of_error ?_⟩
      simp only [discard, Action.ensuring, hbody, if_pos hfatal]
    · refine Or.inr ⟨?_, Action.after_of_error ?_⟩
      · rintro f' hf'
        cases hf'
        exact Bool.eq_false_iff.2 hfatal
      · simp only [discard, Action.ensuring, hbody, if_neg hfatal, hfree]

/-- The end of a stack leaves every region alone that is not its own. -/
theorem discard_ends {gap : Nat} (p : Platform) {s : Stack} {h : Host}
    (hm : h.memory.Spaced gap) :
    ∃ out s' h', Action.after (discard p) (s, h) = (out, s', h') ∧ h'.memory.Spaced gap ∧
      h'.lastId = h.lastId ∧
      ∀ n, n ∉ s.regions → h'.memory.extent? n = h.memory.extent? n := by
  obtain ⟨out, h₁, -, ⟨hmemory, hlast⟩, ⟨f, -, -, hrun⟩ | ⟨-, hrun⟩⟩ := discard_cases p s h
  · refine ⟨_, _, _, hrun, ?_, hlast, fun n _ => by rw [hmemory]⟩
    rw [hmemory]
    exact hm
  · refine ⟨_, _, _, hrun, spaced_withoutBlocks (by rw [hmemory]; exact hm) _,
      (lastId_withoutBlocks _ _).trans hlast, ?_⟩
    intro n hn
    rw [extent?_withoutBlocks, hmemory]
    intro hmem
    apply hn
    rw [regions, blocks, List.map_append]
    rw [List.map_append, List.map_reverse, List.map_reverse] at hmem
    rcases List.mem_append.1 hmem with hactive | hcache
    · exact List.mem_append_left _ (List.mem_reverse.1 hactive)
    · exact List.mem_append_right _ (List.mem_reverse.1 hcache)

end Stack

end StackArena
