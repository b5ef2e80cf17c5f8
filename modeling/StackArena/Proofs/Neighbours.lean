/-
  Stacks next to one another, and next to the heap.

  Several stacks share the memory of a host with the chunks that the heap has served.  They are
  **neighbours** when each of them is settled there, no two have a region in common, and memory is
  **parted**: no live chunk overlaps or touches a live region.  Whoever places memory answers for
  that (`Platform.Parted`).

  1. Parted memory, and the operations that keep it so.
  2. What a change of one stack is to memory: it stays parted, no region that was there is moved,
     and the chunks are the same.
  3. Stacks stand **abreast** when each is settled and no two have a region in common, whatever the
     heap has served.  A stack that changes stays abreast of the others, and a neighbour of them if
     it was one; so does a new one.
  4. Trees of stacks and heaps: a recipe makes leaves that stand abreast, neighbours if memory is
     parted, and these stay so whether the tree is asked or the stack at a leaf is worked with.
  5. The simple heap of `Placement` keeps memory parted.
-/
import StackArena.Proofs.Ledger
import StackArena.Proofs.Trees

namespace StackArena

/-! ## Parted memory -/

/-- `Parted p`: regions and chunks are placed so that no live chunk overlaps or touches a live
    region, and no two live chunks overlap. -/
structure Platform.Parted (p : Platform) : Prop where
  region : ∀ o l base, p.placeRegion o l = some base → ∀ c ∈ o.chunks, c.live = true →
    c.limit < base ∨ base + l.size < c.base
  chunk : ∀ o l base, p.placeChunk o l = some base → ∀ x ∈ o.regions, x.live = true →
    x.limit < base ∨ base + l.size < x.base
  chunks : ∀ o l base, p.placeChunk o l = some base → ∀ c ∈ o.chunks, c.live = true →
    c.limit ≤ base ∨ base + l.size ≤ c.base

namespace Memory

/-- `Parted m`: a live chunk has at least one byte, and keeps away from every live region. -/
structure Parted (m : Memory) : Prop where
  sized : ∀ c ∈ m.chunks, c.live = true → 0 < c.layout.size
  apart : ∀ c ∈ m.chunks, c.live = true → ∀ n x, m.extent? n = some x → x.live = true →
    x.limit < c.base ∨ c.limit < x.base

theorem Parted.empty : Memory.empty.Parted := ⟨nofun, nofun⟩

variable {p : Platform} {m : Memory} {l : Layout} {base : Nat}

theorem Parted.addRegion (hc : p.Parted) (hm : m.Parted)
    (hplace : p.placeRegion m.outline l = some base) (scrap : Bytes) :
    (m.addRegion base l scrap).Parted := by
  refine ⟨hm.sized, ?_⟩
  intro c hmem hlive n x hx hxlive
  rcases extent?_addRegion_cases hx with hold | ⟨-, rfl⟩
  · exact hm.apart c hmem hlive n x hold hxlive
  · exact (hc.region _ _ _ hplace c hmem hlive).symm

theorem Parted.addChunk (hc : p.Parted) (hm : m.Parted) (hsize : 0 < l.size)
    (hplace : p.placeChunk m.outline l = some base) : (m.addChunk base l).Parted := by
  constructor
  · intro c hmem hlive
    rcases List.mem_append.1 hmem with hold | hnew
    · exact hm.sized c hold hlive
    · obtain rfl := List.mem_singleton.1 hnew
      exact hsize
  · intro c hmem hlive n x hx hxlive
    have hx' : m.extent? n = some x := hx
    rcases List.mem_append.1 hmem with hold | hnew
    · exact hm.apart c hold hlive n x hx' hxlive
    · obtain rfl := List.mem_singleton.1 hnew
      exact hc.chunk _ _ _ hplace x (mem_outline_iff.2 ⟨n, hx'⟩) hxlive

/-- A chunk that is live after one was freed was live before, and is another one. -/
theorem mem_freeChunk {c : Extent} (hlive : c.live = true) :
    c ∈ (m.freeChunk base).chunks ↔ c ∈ m.chunks ∧ c.base ≠ base := by
  rw [freeChunk, List.mem_map]
  constructor
  · rintro ⟨old, hold, rfl⟩
    by_cases hbase : old.base = base
    · rw [if_pos hbase] at hlive
      nomatch hlive
    · rw [if_neg hbase]
      exact ⟨hold, hbase⟩
  · rintro ⟨hold, hne⟩
    exact ⟨c, hold, if_neg hne⟩

theorem Parted.freeChunk (hm : m.Parted) (base : Nat) : (m.freeChunk base).Parted := by
  constructor
  · intro c hmem hlive
    exact hm.sized c ((mem_freeChunk hlive).1 hmem).1 hlive
  · intro c hmem hlive n x hx hxlive
    exact hm.apart c ((mem_freeChunk hlive).1 hmem).1 hlive n x hx hxlive

/-- A new chunk is at no address where a live one is. -/
theorem Parted.base_ne (hc : p.Parted) (hm : m.Parted) (hsize : 0 < l.size)
    (hplace : p.placeChunk m.outline l = some base) {c : Extent} (hmem : c ∈ m.chunks)
    (hlive : c.live = true) : c.base ≠ base := by
  have hpos := hm.sized c hmem hlive
  have hlimit : c.limit = c.base + c.layout.size := rfl
  rcases hc.chunks _ _ _ hplace c hmem hlive with hbelow | habove
  · omega
  · omega

end Memory

/-- Freeing regions keeps memory parted. -/
theorem Host.Records.parted {h h' : Host} {freed : List Nat} (hr : h.Records [] freed h')
    (hm : h.memory.Parted) : h'.memory.Parted := by
  constructor
  · intro c hmem
    rw [hr.chunks_eq] at hmem
    exact hm.sized c hmem
  · intro c hmem hlive n x hx hxlive
    rw [hr.chunks_eq] at hmem
    -- No region was made, so this one was there, and it has not been freed.
    have hthere : h.memory.extent? n ≠ none := by
      intro hnone
      exact List.not_mem_nil ((hr.made_iff n).2 ⟨hnone, by rw [hx]; nofun⟩)
    obtain ⟨y, hy⟩ := Option.ne_none_iff_exists'.1 hthere
    by_cases hfreed : n ∈ freed
    · rw [hr.gone n y hfreed hy] at hx
      cases hx
      nomatch hxlive
    · rw [hr.kept n y hfreed hy] at hx
      cases hx
      exact hm.apart c hmem hlive n x hy hxlive

namespace Stack

variable {p : Platform} {gap : Nat} {r : Request} {s s' : Stack} {h h' : Host}

/-! ## A stack that changes -/

theorem Grow.parted {required : Nat} {out : Except Fault Unit} (hc : p.Parted)
    (hm : h.memory.Parted) (hgrow : Grow p required s h (out, s', h')) : h'.memory.Parted := by
  cases hgrow with
  | reused => exact hm
  | made hserial hcache hplace => exact hm.addRegion hc hplace _
  | serialsOut => exact hm
  | noBlock => exact hm

theorem Serves.parted {out : Except Fault (Option Nat)} (hc : p.Parted) (hm : h.memory.Parted)
    (hserves : Serves p r s h (out, s', h')) : h'.memory.Parted :=
  hserves.keeps (P := fun _ h' => h'.memory.Parted) hm (fun hgrow => hgrow.parted hc hm)
    fun hfirst hbump => hbump.records.1.parted hfirst

/-- **What a change of a stack is to memory**: it stays parted, no region is moved, and the chunks
    are left alone. -/
theorem Change.parted {known : Marker → Prop} (hc : p.Parted) (hset : Settled gap s h)
    (hm : h.memory.Parted) (hchange : Change p known s h s' h') :
    h'.memory.Parted ∧ h.memory.Ages h'.memory ∧ h'.memory.chunks = h.memory.chunks := by
  cases hchange with
  | still hstill =>
    rw [hstill.1]
    exact ⟨hm, .refl _, rfl⟩
  | served hserves =>
    obtain ⟨made, hrecords, -⟩ := hserves.records
    exact ⟨hserves.parted hc hm, hrecords.ages, hrecords.chunks_eq⟩
  | @unwound m hknown hok =>
    have hrun := Action.after_of_ok (unwind_of_accepted h hset.wellFormed hok)
    obtain ⟨freed, hrecords, -⟩ := unwind_records hset.wellFormed hrun
    exact ⟨hrecords.parted hm, hrecords.ages, hrecords.chunks_eq⟩
  | shrunk =>
    have hrecords := s.shrink_records h
    exact ⟨hrecords.parted hm, hrecords.ages, hrecords.chunks_eq⟩

end Stack

/-! ## Stacks abreast -/

open Stack

/-- `Abreast gap ss h`: the stacks are settled next to one another. -/
structure Abreast (gap : Nat) (ss : List Stack) (h : Host) : Prop where
  settled : ∀ s ∈ ss, Settled gap s h
  distinct : ss.Pairwise fun s t => s.regions.Disjoint t.regions
  spaced : h.memory.Spaced gap

namespace Abreast

variable {gap : Nat} {ss left right : List Stack} {s s' : Stack} {h h' : Host}

/-- A stack that moves keeps to its regions and to new ones, so the others stay settled and have
    nothing in common with it. -/
theorem replace (ha : Abreast gap (left ++ s :: right) h) (hmoves : Moves gap s h s' h') :
    Abreast gap (left ++ s' :: right) h' := by
  obtain ⟨hleft, hrest, hcross⟩ := List.pairwise_append.1 ha.distinct
  obtain ⟨hhead, hright⟩ := List.pairwise_cons.1 hrest
  have hother : ∀ t, t ∈ left ∨ t ∈ right → Settled gap t h ∧ s.regions.Disjoint t.regions := by
    rintro t (ht | ht)
    · refine ⟨ha.settled t (List.mem_append_left _ ht), ?_⟩
      exact (hcross t ht s List.mem_cons_self).symm
    · refine ⟨ha.settled t (List.mem_append_right _ (List.mem_cons_of_mem s ht)), ?_⟩
      exact hhead t ht
  have hkept : ∀ t, t ∈ left ∨ t ∈ right → Settled gap t h' := by
    intro t ht
    obtain ⟨hset, hdisjoint⟩ := hother t ht
    refine hset.of_frame hmoves.settled.spaced ?_
    intro n x hmem hx
    exact hmoves.frame n x (fun hown => hdisjoint hown hmem) hx
  have hapart : ∀ t, t ∈ left ∨ t ∈ right → s'.regions.Disjoint t.regions := by
    intro t ht n hown hmem
    obtain ⟨hset, hdisjoint⟩ := hother t ht
    rcases hmoves.owned n hown with hold | hnew
    · exact hdisjoint hold hmem
    · exact hset.lodged.notMem_of_extent?_none hnew hmem
  refine ⟨?_, ?_, hmoves.settled.spaced⟩
  · intro t ht
    rcases List.mem_append.1 ht with hl | hrest'
    · exact hkept t (Or.inl hl)
    · rcases List.mem_cons.1 hrest' with rfl | hr
      · exact hmoves.settled
      · exact hkept t (Or.inr hr)
  · refine List.pairwise_append.2 ⟨hleft, List.pairwise_cons.2 ⟨?_, hright⟩, ?_⟩
    · intro t ht
      exact hapart t (Or.inr ht)
    · intro t ht u hu
      rcases List.mem_cons.1 hu with rfl | hr
      · exact (hapart t (Or.inl ht)).symm
      · exact hcross t ht u (List.mem_cons_of_mem s hr)

/-- Stacks that were made later, in regions of their own, stand abreast of the ones before. -/
theorem append {older newer : List Stack} (ho : Abreast gap older h) (ha : Abreast gap newer h')
    (hkept : ∀ n x, h.memory.extent? n = some x → h'.memory.extent? n = some x)
    (hnew : ∀ s ∈ newer, ∀ n ∈ s.regions, h.memory.extent? n = none) :
    Abreast gap (older ++ newer) h' := by
  refine ⟨?_, List.pairwise_append.2 ⟨ho.distinct, ha.distinct, ?_⟩, ha.spaced⟩
  · intro s hs
    rcases List.mem_append.1 hs with hold | hlate
    · exact (ho.settled s hold).of_frame ha.spaced fun n x _ hx => hkept n x hx
    · exact ha.settled s hlate
  · intro s hs t ht n hown hmem
    exact (ho.settled s hs).lodged.notMem_of_extent?_none (hnew t ht n hmem) hown

/-- Nothing is asked of the host but its regions. -/
theorem of_regions (ha : Abreast gap ss h)
    (hsame : ∀ n, h'.memory.extent? n = h.memory.extent? n) : Abreast gap ss h' := by
  refine ⟨fun s hs => ?_, ha.distinct, ha.spaced.congr hsame⟩
  exact (ha.settled s hs).of_frame (ha.spaced.congr hsame) fun n x _ hx => (hsame n).trans hx

end Abreast

/-! ## Neighbours -/

/-- `Neighbours gap ss h`: the stacks are settled next to one another and to the heap. -/
structure Neighbours (gap : Nat) (ss : List Stack) (h : Host) : Prop where
  settled : ∀ s ∈ ss, Settled gap s h
  distinct : ss.Pairwise fun s t => s.regions.Disjoint t.regions
  spaced : h.memory.Spaced gap
  parted : h.memory.Parted

namespace Neighbours

variable {p : Platform} {gap : Nat} {ss left right : List Stack} {s s' : Stack} {h h' : Host}

theorem abreast (hn : Neighbours gap ss h) : Abreast gap ss h :=
  ⟨hn.settled, hn.distinct, hn.spaced⟩

/-- Stacks abreast are neighbours in parted memory. -/
theorem of_abreast (ha : Abreast gap ss h) (hparted : h.memory.Parted) : Neighbours gap ss h :=
  ⟨ha.settled, ha.distinct, ha.spaced, hparted⟩

/-- **A change of one stack** leaves all of them neighbours; no region is moved, and the chunks are
    left alone. -/
theorem change (hp : p.Sound gap) (hc : p.Parted) (hn : Neighbours gap (left ++ s :: right) h)
    {known : Marker → Prop} (hchange : Change p known s h s' h') :
    Neighbours gap (left ++ s' :: right) h' ∧ h.memory.Ages h'.memory ∧
      h'.memory.chunks = h.memory.chunks := by
  have hset := hn.settled s (by simp)
  obtain ⟨hparted, hrest⟩ := hchange.parted hc hset hn.parted
  exact ⟨of_abreast (hn.abreast.replace (hchange.moves hp hset)) hparted, hrest⟩

/-- Chunks are nothing to the stacks. -/
theorem of_chunks {chunks : List Extent} {journal : List Note} (hn : Neighbours gap ss h)
    (hparted : ({ h.memory with chunks } : Memory).Parted) :
    Neighbours gap ss { h with memory := { h.memory with chunks }, journal } :=
  of_abreast (hn.abreast.of_regions fun _ => rfl) hparted

end Neighbours

/-! ## Asking a tree of neighbours -/

/-- **What a request to a tree is to memory**: the stacks stay neighbours, no region is moved, and
    at most one chunk comes to be, the one that is handed out. -/
theorem Answers.neighbours {p : Platform} {gap : Nat} {r : Request} {heaped : Bool}
    {ss ss' : List Stack} {h h' : Host} {out : Except Fault (Option Nat)} (hp : p.Sound gap)
    (hc : p.Parted) (hn : Neighbours gap ss h) (ha : Answers p r heaped ss h (out, ss', h')) :
    Neighbours gap ss' h' ∧ h.memory.Ages h'.memory ∧
      (h'.memory.chunks = h.memory.chunks ∨
        ∃ base l, h'.memory.chunks = h.memory.chunks ++ [⟨base, l, true⟩] ∧
          out = .ok (some base) ∧ Heap.layout r = .ok l ∧ heaped = true ∧
          p.placeChunk h.memory.outline l = some base) := by
  cases ha with
  | refused => exact ⟨hn, .refl _, Or.inl rfl⟩
  | stack hserves =>
    have hchange : Stack.Change p (fun _ => False) _ h _ h' := .served hserves
    obtain ⟨hn', hages, hchunks⟩ := hn.change hp hc hchange
    exact ⟨hn', hages, Or.inl hchunks⟩
  | heap hheap hends =>
    cases hends with
    | nothing => exact ⟨hn, .refl _, Or.inl rfl⟩
    | served hlayout hplace =>
      have hparted := hn.parted.addChunk hc (Heap.layout_size hlayout) hplace
      exact ⟨hn.of_chunks hparted, fun n x hx => ⟨x.live, hx⟩,
        Or.inr ⟨_, _, rfl, rfl, hlayout, hheap, hplace⟩⟩

/-! ## Working with the stack at a leaf -/

/-- `Direct`: a direct operation on a stack.  A guard unwinds to its marker, so an unwind to any
    marker stands for those of guards as well. -/
inductive Direct where
  | ask (form : Form) (r : Request)
  | unwind (m : Marker)
  | unwindAll
  | shrink
  | reportLeaks
deriving DecidableEq, Repr

/-- The stack and the host after a direct operation. -/
def Direct.run (p : Platform) (st : Stack × Host) : Direct → Stack × Host
  | ask form r => (Action.after (form.ask p r) st).2
  | unwind m => (Action.after (Stack.unwind p m) st).2
  | unwindAll => (Action.after (Stack.unwindAll p) st).2
  | shrink => (Action.after Stack.shrink st).2
  | reportLeaks => (Action.after (Stack.reportLeaks p) st).2

/-- A direct operation is one of the changes of a stack. -/
theorem Direct.change {p : Platform} {gap : Nat} (hp : p.Sound gap) {s : Stack} {h : Host}
    (hset : Stack.Settled gap s h) (d : Direct) :
    Stack.Change p (fun _ => True) s h (d.run p (s, h)).1 (d.run p (s, h)).2 := by
  have hunwind : ∀ m, Stack.Change p (fun _ => True) s h
      (Action.after (Stack.unwind p m) (s, h)).2.1
      (Action.after (Stack.unwind p m) (s, h)).2.2 := by
    intro m
    rcases Stack.unwind_ends p m h hset.wellFormed with ⟨hrun, hok⟩ | ⟨f, hrun, -, -⟩
    · rw [hrun]
      exact .unwound trivial hok
    · rw [hrun]
      exact .still (Host.Still.refl h)
  cases d with
  | ask form r =>
    have hasked := Stack.ask_ends hp hset form r
    rw [run]
    generalize Action.after (form.ask p r) (s, h) = last at hasked ⊢
    cases hasked with
    | asked hrequest hserves => exact .served hserves
    | refused => exact .still (Host.Still.refl h)
  | unwind m => exact hunwind m
  | unwindAll => exact hunwind s.bottom
  | shrink =>
    rw [run, Action.after_of_ok (Stack.shrink_apply s h)]
    exact .shrunk
  | reportLeaks =>
    obtain ⟨out, h', hrun, hstill⟩ := Stack.reportLeaks_ends p s h
    rw [run, hrun]
    exact .still hstill

/-- A path leads to some of the leaves in a row, and putting a part back there leaves the others as
    they are. -/
theorem Tree.part?_leaves {t : Tree} {path : List Side} {q : Part t} (hpart : t.part? path = some q)
    (s : t.State) : ∃ left right,
      t.stackLeaves s = left ++ q.shape.stackLeaves (q.get s) ++ right ∧
      ∀ x, t.stackLeaves (q.put x s) = left ++ q.shape.stackLeaves x ++ right := by
  induction t generalizing path with
  | fallback first second ihfirst ihsecond =>
    obtain ⟨s, u⟩ := s
    cases path with
    | nil =>
      cases hpart
      exact ⟨[], [], (List.append_nil _).symm, fun x => (List.append_nil _).symm⟩
    | cons side path =>
      cases side with
      | first =>
        obtain ⟨q, hq, heq⟩ := Option.bind_eq_some_iff.1 hpart
        cases heq
        obtain ⟨left, right, hleaves, hput⟩ := ihfirst hq s
        refine ⟨left, right ++ second.stackLeaves u, ?_, fun x => ?_⟩
        · rw [stackLeaves, hleaves, List.append_assoc _ right]
        · rw [stackLeaves, hput, List.append_assoc _ right]
      | second =>
        obtain ⟨q, hq, heq⟩ := Option.bind_eq_some_iff.1 hpart
        cases heq
        obtain ⟨left, right, hleaves, hput⟩ := ihsecond hq u
        refine ⟨first.stackLeaves s ++ left, right, ?_, fun x => ?_⟩
        · rw [stackLeaves, hleaves, ← List.append_assoc, ← List.append_assoc]
        · rw [stackLeaves, hput, ← List.append_assoc, ← List.append_assoc]
  | _ =>
    -- A leaf has no part but itself.
    cases path with
    | nil =>
      cases hpart
      exact ⟨[], [], (List.append_nil _).symm, fun x => (List.append_nil _).symm⟩
    | cons side path => simp [part?] at hpart

/-- A path that leads to a stack leads to one of the leaves. -/
theorem Tree.part?_stack {t : Tree} {path : List Side} {get : t.State → Stack}
    {put : Stack → t.State → t.State} (hpart : t.part? path = some ⟨.stack, get, put⟩)
    (s : t.State) : ∃ left right, t.stackLeaves s = left ++ get s :: right ∧
      ∀ st, t.stackLeaves (put st s) = left ++ st :: right := by
  obtain ⟨left, right, hleaves, hput⟩ := part?_leaves hpart s
  exact ⟨left, right, hleaves.trans (List.append_assoc left [get s] right),
    fun st => (hput st).trans (List.append_assoc left [st] right)⟩

/-! ## Making trees of neighbours -/

/-- What a configuration makes is a new stack, in a region of its own. -/
theorem Stack.newborn_of_ofConfig {p : Platform} {c : Config} {s : Stack} {h h' : Host}
    (hrun : Stack.ofConfig p c h = .ok (.ok s) h') : ∃ base,
      p.placeRegion h.memory.outline (Block.layoutOf c.initialBlock) = some base ∧
        c.validate = .ok () ∧ s = newborn c h base ∧
        h' = (identified h).withRegion p base (Block.layoutOf c.initialBlock) := by
  rcases ofConfig_cases p c h with ⟨base, hplace, hmade, hvalid⟩ | ⟨e, hrefused⟩ | ⟨f, hfailed⟩
  · cases hmade.symm.trans hrun
    exact ⟨base, hplace, hvalid, rfl, rfl⟩
  · cases hrefused.symm.trans hrun
  · cases hfailed.symm.trans hrun

namespace Recipe

variable {p : Platform} {gap : Nat} {h h' : Host}

/-- Both sides of a fallback are made, one after the other. -/
theorem make_fallback {first second : Recipe} {s : first.tree.State} {u : second.tree.State}
    (hrun : (fallback first second).make p h = .ok (.ok (s, u)) h') :
    ∃ h₁, first.make p h = .ok (.ok s) h₁ ∧ second.make p h₁ = .ok (.ok u) h' := by
  obtain ⟨res, h₁, hfirst, hrest⟩ := Action.bind_eq_ok hrun
  cases res with
  | error cause => cases hrest
  | ok s₁ =>
    obtain ⟨res, h₂, hattempt, hend⟩ := Action.bind_eq_ok hrest
    -- Where the second side fails, the first is discarded and nothing is made.
    rcases res with fault | (cause | u₁)
    · obtain ⟨_, _, -, hthrow⟩ := Action.bind_eq_ok hend
      cases hthrow
    · obtain ⟨_, _, -, hrefuse⟩ := Action.bind_eq_ok hend
      cases hrefuse
    · cases hend
      exact ⟨h₁, hfirst, Action.ok_of_attempt hattempt⟩

/-- **What a recipe makes** are stacks abreast, in regions that were not there before. -/
theorem make_abreast (hp : p.Sound gap) {recipe : Recipe} (ht : recipe.tree.Unbudgeted)
    {s : recipe.tree.State} (hspaced : h.memory.Spaced gap)
    (hrun : recipe.make p h = .ok (.ok s) h') :
    Abreast gap (recipe.tree.stackLeaves s) h' ∧
      (∀ n x, h.memory.extent? n = some x → h'.memory.extent? n = some x) ∧
      ∀ st ∈ recipe.tree.stackLeaves s, ∀ n ∈ st.regions, h.memory.extent? n = none := by
  induction recipe generalizing h h' with
  | stack c =>
    obtain ⟨base, hplace, -, rfl, rfl⟩ := Stack.newborn_of_ofConfig hrun
    have hset := Stack.newborn_settled hp hspaced hplace
    refine ⟨⟨?_, List.pairwise_singleton _ _, hset.spaced⟩, ?_, ?_⟩
    · intro st hst
      rw [List.mem_singleton.1 hst]
      exact hset
    · intro n x hx
      exact Memory.extent?_addRegion_of_some base _ _ hx
    · intro st hst n hn
      rw [List.mem_singleton.1 hst] at hn
      rw [List.mem_singleton.1 hn]
      exact h.memory.extent?_nextRegion
  | heap =>
    cases hrun
    exact ⟨⟨nofun, List.Pairwise.nil, hspaced⟩, fun n x hx => hx, nofun⟩
  | budget => exact ht.elim
  | fallback first second ihfirst ihsecond =>
    obtain ⟨s, u⟩ := s
    obtain ⟨h₁, hfirst, hsecond⟩ := make_fallback hrun
    obtain ⟨ha, hkept, hnew⟩ := ihfirst ht.1 hspaced hfirst
    obtain ⟨ha', hkept', hnew'⟩ := ihsecond ht.2 ha.spaced hsecond
    refine ⟨ha.append ha' hkept' hnew', fun n x hx => hkept' n x (hkept n x hx), ?_⟩
    intro st hst n hmem
    rcases List.mem_append.1 hst with hold | hlate
    · exact hnew st hold n hmem
    · have hnone := hnew' st hlate n hmem
      by_contra hthere
      obtain ⟨x, hx⟩ := Option.ne_none_iff_exists'.1 hthere
      rw [hkept n x hx] at hnone
      nomatch hnone

/-- Making a tree of stacks and heaps keeps memory parted. -/
theorem make_parted (hc : p.Parted) {recipe : Recipe} (ht : recipe.tree.Unbudgeted)
    {s : recipe.tree.State} (hparted : h.memory.Parted) (hrun : recipe.make p h = .ok (.ok s) h') :
    h'.memory.Parted := by
  induction recipe generalizing h h' with
  | stack c =>
    obtain ⟨base, hplace, -, -, rfl⟩ := Stack.newborn_of_ofConfig hrun
    exact hparted.addRegion hc hplace _
  | heap =>
    cases hrun
    exact hparted
  | budget => exact ht.elim
  | fallback first second ihfirst ihsecond =>
    obtain ⟨h₁, hfirst, hsecond⟩ := make_fallback hrun
    exact ihsecond ht.2 (ihfirst ht.1 hparted hfirst) hsecond

/-- In parted memory the stacks that a recipe makes are neighbours. -/
theorem make_neighbours (hp : p.Sound gap) (hc : p.Parted) {recipe : Recipe}
    (ht : recipe.tree.Unbudgeted) {s : recipe.tree.State} (hspaced : h.memory.Spaced gap)
    (hparted : h.memory.Parted) (hrun : recipe.make p h = .ok (.ok s) h') :
    Neighbours gap (recipe.tree.stackLeaves s) h' :=
  .of_abreast (make_abreast hp ht hspaced hrun).1 (make_parted hc ht hparted hrun)

end Recipe

/-! ## The simple heap -/

theorem Placement.chunk_spec {o : Outline} {l : Layout} {base : Nat}
    (h : Placement.chunk o l = some base) : o.limit + Placement.gap ≤ base := by
  simp only [Placement.chunk, Placement.fitting?] at h
  split at h
  · cases h
    have hpos : 0 < max l.alignment Alignment.maxNatural :=
      Nat.lt_of_lt_of_le (by decide) (Nat.le_max_right _ _)
    exact Placement.le_next o hpos
  · cases h

/-- **The simple heap keeps memory parted**: what it places stands above everything that was ever
    made, with room between. -/
theorem Session.platform_parted (b : Build) (skews : List Nat) :
    (Session.platform b skews).Parted := by
  have hgap : 0 < Placement.gap := by decide
  refine ⟨?_, ?_, ?_⟩
  · intro o l base hplace c hc _
    have habove := (Placement.region_spec hplace).1
    have hlimit := Outline.limit_le (List.mem_append_right _ hc)
    exact Or.inl (by omega)
  · intro o l base hplace x hx _
    have habove := Placement.chunk_spec hplace
    have hlimit := Outline.limit_le (List.mem_append_left _ hx)
    exact Or.inl (by omega)
  · intro o l base hplace c hc _
    have habove := Placement.chunk_spec hplace
    have hlimit := Outline.limit_le (List.mem_append_right _ hc)
    exact Or.inl (by omega)

end StackArena
